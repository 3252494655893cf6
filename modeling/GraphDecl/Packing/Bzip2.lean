import GraphDecl.Packing.Checksum
import GraphDecl.Packing.Mixing
import GraphDecl.Packing.PrefixCode

/-!
Unpacking data packed with bzip2. A block of bytes is sorted by what follows each of them, which brings
equal bytes together; then bytes are numbered by how long ago they were used, so that small numbers
prevail, and these are written in words of different length. Bits are taken from the high end of each byte.
-/

namespace GraphDecl.Bzip2

open Packing

structure Progress where
  /-- The bits that are read. -/
  place : Nat
  out : ByteArray
  portion : Portion

/-- There is only one kind of fault. -/
abbrev Step (α : Type) := Unpacker Progress Unit α

def refuse {α : Type} : Step α := broken ()

/-- Makes sure that the byte at the place is given. -/
def demandByte : Step Unit := do
  let place := (← get).place / 8
  unless place < (← get).portion.given do
    let size := (← get).out.size
    match (← read).next? place size (← get).portion with
    | some portion => modify fun p => { p with portion }
    | none => throw .exhausted

def bit : Step Nat := do
  demandByte
  let place := (← get).place
  modify fun p => { p with place := p.place + 1 }
  return ((← read).packed[place / 8]?.getD 0).toNat >>> (7 - place % 8) % 2

/-- A number of `width` bits, the highest one first. -/
def bits : Nat → Step Nat
  | 0 => return 0
  | width + 1 => do
    let high ← bits width
    return 2 * high + (← bit)

def expect : List Nat → Step Unit
  | [] => return
  | byte :: bytes => do if (← bits 8) = byte then expect bytes else refuse

/-! ### The head of a block -/

/-- Reads 16 flags and picks the numbers from `first` on whose flag is set. -/
def flagged (first : Nat) : Step (List Nat) := do
  let flags ← bits 16
  return ((List.range 16).filter fun i => flags.testBit (15 - i)).map (first + ·)

/-- The bytes that occur: first which groups of sixteen do, then which bytes of these. -/
def usedBytes : Step (List UInt8) := do
  let groups ← flagged 0
  let bytes ← groups.mapM fun group => flagged (16 * group)
  return bytes.flatten.map (·.toUInt8)

/-- A number below `limit`, written by as many set bits. -/
def unary (limit : Nat) : Step Nat :=
  match limit with
  | 0 => refuse
  | limit + 1 => do
    if (← bit) = 0 then return 0 else return 1 + (← unary limit)

def toFront {α : Type} (xs : List α) (i : Nat) : List α := (xs[i]?).toList ++ xs.eraseIdx i

/-- The elements that numbers mean, which count from the one used last. -/
def recalled {α : Type} (xs : List α) : List Nat → List α
  | [] => []
  | i :: is =>
    let xs := toFront xs i
    xs.head?.toList ++ recalled xs is

/-- Changes the length of a word by one, up or down, as long as bits say so. It has to be from 1 to 20. -/
def wordLength (length : Nat) : Nat → Step Nat
  | 0 => throw .exhausted
  | bound + 1 => do
    if length < 1 ∨ 20 < length then refuse
    else if (← bit) = 0 then return length
    else if (← bit) = 0 then wordLength (length + 1) bound
    else wordLength (length - 1) bound

/-- The lengths of `count` words, each of which starts with the one before. -/
def wordLengths (bound length : Nat) : Nat → Step (List Nat)
  | 0 => return []
  | count + 1 => do
    let length ← wordLength length bound
    return length :: (← wordLengths bound length count)

/-- A code for `count` symbols. -/
def ownCode (bound count : Nat) : Step PrefixCode := do
  return .ofLengths (← wordLengths bound (← bits 5) count) 20

/-! ### The words of a block -/

/-- How many words are read with one code. -/
def groupSize : Nat := 50

/-- The most groups that count. -/
def maxGroups : Nat := 18002

/-- The symbol of the next word. What is no word is known to be none after one more bit. -/
def nextSymbol (c : PrefixCode) : Step Nat := do
  match ← c.symbol? bit with
  | some symbol => return symbol
  | none => do
    discard bit
    refuse

structure Block where
  bytes : ByteArray
  /-- The bytes that occur, the last used first. -/
  recent : List UInt8
  /-- How often the first of these is still to be put. -/
  run : Nat
  /-- What the next digit of `run` counts for. -/
  weight : Nat

/-- Puts the run that is pending. -/
def Block.settle (b : Block) : Block :=
  { b with bytes := putTimes (b.recent.headD 0) b.run b.bytes, run := 0, weight := 1 }

/-- The words of a block of at most `capacity` bytes; `codes` are those of the groups that are left, and
`left` words of the first group are still to come. The symbols 0 and 1 are the digits of a run, which
stand for 1 and 2; the others number bytes, and the last of them ends the block. -/
def words (capacity last : Nat) : Nat → List PrefixCode → Nat → Block → Step ByteArray
  | 0, _, _, _ => throw .exhausted
  | _, [], _, _ => refuse
  | bound + 1, code :: codes, left, b => do
    let symbol ← nextSymbol code
    let (codes, left) := if left ≤ 1 then (codes, groupSize) else (code :: codes, left - 1)
    if symbol ≤ 1 then
      if 2 ^ 21 ≤ b.weight then refuse
      else
        words capacity last bound codes left
          { b with run := b.run + (symbol + 1) * b.weight, weight := 2 * b.weight }
    else if capacity < b.bytes.size + b.run then refuse
    else
      let b := b.settle
      if symbol = last then return b.bytes
      else if capacity ≤ b.bytes.size then refuse
      else
        let recent := toFront b.recent (symbol - 1)
        words capacity last bound codes left
          { b with bytes := b.bytes.push (recent.headD 0), recent }

/-! ### The order of a block -/

/-- The places of the bytes of a block, sorted by the bytes there. -/
def sortedPlaces (bytes : ByteArray) : Array Nat :=
  let places := bytes.toList.zipIdx.foldl
    (fun (places : Array (Array Nat)) (byte, i) => places.modify byte.toNat (·.push i))
    (Array.replicate 256 #[])
  places.flatten

/-- Goes `n` times from a place to the one that `next` gives for it, and puts the bytes there. -/
def walk (bytes : ByteArray) (next : Array Nat) : Nat → Nat → ByteArray → ByteArray
  | 0, _, out => out
  | n + 1, place, out =>
    walk bytes next n (next.getD place 0) (out.push (bytes[place]?.getD 0))

/-- The bytes of a block in their own order, of which the sorted ones are given. The first of them is
at `origin` in this order. -/
def inOrder (bytes : ByteArray) (origin : Nat) : ByteArray :=
  let next := sortedPlaces bytes
  walk bytes next bytes.size (next.getD origin 0) .empty

/-- After four equal bytes a byte says how many more of them follow. There are `count` bytes `last` at
the end of `out`. -/
def expand (last : UInt8) (count : Nat) (out : ByteArray) : List UInt8 → Option ByteArray
  | [] => if count = 4 then none else some out
  | byte :: bytes =>
    if count = 4 then expand last 0 (putTimes last byte.toNat out) bytes
    else if 0 < count ∧ byte = last then expand last (count + 1) (out.push byte) bytes
    else expand byte 1 (out.push byte) bytes

/-! ### Blocks -/

/-- The bytes of a block, which has at most `capacity` of them before runs are expanded. -/
def blockBytes (bound capacity : Nat) : Step ByteArray := do
  let isMixed := (← bit) = 1
  let origin ← bits 24
  if capacity + 10 < origin then refuse
  else
    let used ← usedBytes
    let codeCount ← if used.isEmpty then refuse else bits 3
    let groupCount ← if codeCount < 2 ∨ 6 < codeCount then refuse else bits 15
    if groupCount = 0 then refuse
    else
      let numbers ← (List.range groupCount).mapM fun _ => unary codeCount
      let codes ← (List.range codeCount).mapM fun _ => ownCode bound (used.length + 2)
      let bytes ← words capacity (used.length + 1) bound (recalled codes (numbers.take maxGroups))
        groupSize ⟨.empty, used, 0, 1⟩
      if bytes.size ≤ origin then refuse
      else
        let ordered := inOrder bytes origin
        match expand 0 0 .empty (if isMixed then Mixing.mix ordered else ordered).toList with
        | some bytes => return bytes
        | none => refuse

def blockMark : List Nat := [0x31, 0x41, 0x59, 0x26, 0x53, 0x59]
def endMark : List Nat := [0x17, 0x72, 0x45, 0x38, 0x50, 0x90]

/-- A checksum of the checksums of all blocks, with the one of another block. -/
def combine (combined checksum : UInt32) : UInt32 :=
  ((combined <<< 1) ||| (combined >>> 31)) ^^^ checksum

/-- The remaining blocks. Each of them, and all of them, have a checksum. -/
def blocks (bound capacity : Nat) : Nat → UInt32 → Step Unit
  | 0, _ => throw .exhausted
  | n + 1, combined => do
    let first ← bits 8
    if some first = blockMark.head? then
      expect blockMark.tail
      let checksum ← bits 32
      let bytes ← blockBytes bound capacity
      if (Checksum.ofBytesHighFirst bytes).toNat ≠ checksum then refuse
      else
        modify fun p => { p with out := p.out ++ bytes }
        blocks bound capacity n (combine combined checksum.toUInt32)
    else if some first = endMark.head? then
      expect endMark.tail
      if (← bits 32) ≠ combined.toNat then refuse
    else refuse

/-- Packed data starts with letters and a digit for the size of its blocks. -/
def stream (bound : Nat) : Step Unit := do
  expect ['B'.toNat, 'Z'.toNat, 'h'.toNat]
  let size ← bits 8
  if size < '1'.toNat ∨ '9'.toNat < size then refuse
  else blocks bound (100000 * (size - '0'.toNat)) bound 0

def unpack (supply : Supply) : Unpacked Unit :=
  Packing.run (fun p => (p.out, p.portion)) (stream (8 * supply.packed.size + 1)) (⟨0, .empty, ·⟩)
    supply

end GraphDecl.Bzip2
