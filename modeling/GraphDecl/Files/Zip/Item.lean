import GraphDecl.Files.Zip.Directory
import GraphDecl.Files.Zip.Packed

/-!
What a zip archive has under its names. The directory, the packed data of each entry and the bytes that
it unpacks to can be damaged independently of each other.
-/

namespace GraphDecl.Zip

/-! ### Entries in messages -/

def methodNames : List (Nat × String) :=
  [(1, "shrink"), (2, "reduce"), (3, "reduce"), (4, "reduce"), (5, "reduce"), (6, "implode"),
    (7, "tokenize"), (8, "deflate"), (9, "deflate64"), (10, "implode"), (12, "bzip2"), (14, "lzma"),
    (18, "terse"), (19, "lz77"), (97, "wavpack"), (98, "ppmd")]

def kindLetter : Nat → Char
  | 1 => 'p'
  | 2 => 'c'
  | 4 => 'd'
  | 6 => 'b'
  | 8 => '-'
  | 10 => 'l'
  | 12 => 's'
  | _ => '?'

/-- Three permissions. A special bit replaces the third one, by a capital if that is not given. -/
def permissions (bits : Nat) (special : Bool) (letter : Char) : List Char :=
  [if bits.testBit 2 then 'r' else '-', if bits.testBit 1 then 'w' else '-',
    match special, bits.testBit 0 with
    | false, true => 'x'
    | false, false => '-'
    | true, true => letter
    | true, false => letter.toUpper]

/-- A file mode as ten characters: the kind of file, and what owner, group and others may do. -/
def modeText (mode : Nat) : String :=
  String.ofList (kindLetter (mode / 4096 % 16) :: permissions (mode / 64 % 8) (mode.testBit 11) 's'
    ++ permissions (mode / 8 % 8) (mode.testBit 10) 's' ++ permissions (mode % 8) (mode.testBit 9) 't')

/-- An entry in one line. Methods, attributes and sizes appear only if they are not the usual ones. -/
def Entry.text (e : Entry) : String :=
  let part (shown : Bool) (label value : String) := if shown then " " ++ label ++ "=" ++ value else ""
  let mode := e.attributes / 65536
  let rest := e.attributes % 65536
  "<ZipInfo" ++ part true "filename" (Text.quoted e.name)
    ++ part (e.method ≠ 0) "compress_type" ((methodNames.lookup e.method).getD (toString e.method))
    ++ part (mode ≠ 0) "filemode" (Text.quoted (modeText mode))
    ++ part (rest ≠ 0) "external_attr" ("0x" ++ String.ofList (Nat.toDigits 16 rest))
    ++ part true "file_size" (toString e.size)
    ++ part (e.method ≠ 0 || e.size ≠ e.packedSize) "compress_size" (toString e.packedSize) ++ ">"

/-! ### Reading -/

def lastPlace : Nat := 1 <<< 44 - 1 <<< 12

def placeOf (start : Int) : Except ArchiveFault Nat :=
  if start < -0x8000000000000000 ∨ 0x8000000000000000 ≤ start then .error .startTooLarge
  else if start < 0 ∨ lastPlace < start then .error .startOutOfReach
  else .ok start.toNat

/-- The packed data of a member that has to end before `limit`. A header in front of it repeats its
name. -/
def Entry.packed (data : ByteArray) (limit : Int) (e : Entry) : Except ArchiveFault Packed := do
  let place ← placeOf e.start
  if data.size < place + 30 then throw .headerCut
  if number data place 4 ≠ headerMark then throw .headerMark
  if e.flags.testBit 5 then throw .patchedData
  if e.flags.testBit 6 then throw .strongEncryption
  let nameEnd := min data.size (place + 30 + number data (place + 26) 2)
  let header := data.extract (place + 30) nameEnd
  if (← nameOf (number data (place + 6) 2) header) ≠ e.fullName then
    throw (.nameDiffers e.fullName header.toList)
  let start := min data.size (nameEnd + number data (place + 28) 2)
  if limit < start + e.packedSize then throw (.overlap e.fullName)
  if e.flags.testBit 0 then throw (.encrypted e.text)
  let some method := Method.ofNumber? e.method | throw .unknownMethod
  return { name := e.name, method
           bytes := data.extract start (min data.size (start + e.packedSize))
           packedSize := e.packedSize
           size := e.size
           checksum := e.checksum }

structure Item where
  name : String
  packed : Except ArchiveFault Packed

/-- The items for entries that follow others, which start at `before`. -/
def itemsAfter (data : ByteArray) (d : Directory) (before : List Int) : List Entry → List Item
  | [] => []
  | e :: es =>
    ⟨e.name, e.packed data (d.limit before e.start)⟩ :: itemsAfter data d (e.start :: before) es

/-- What an archive has, in the order of its directory. Of several members with one name, the last one
counts for all. -/
def items (data : ByteArray) : Except ArchiveFault (List Item) := do
  let d ← directory data
  let all := itemsAfter data d [] d.entries
  return all.map fun item => (all.reverse.find? (·.name == item.name)).getD item

end GraphDecl.Zip
