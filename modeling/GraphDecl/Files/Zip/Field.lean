import GraphDecl.Files.ArchiveFault

/-!
The fields of zip archives: numbers, marks that start records, and names.
-/

namespace GraphDecl.Zip

/-- The number in `width` bytes from `place` on, the lowest byte first. Bytes past the end count as 0. -/
def number (data : ByteArray) (place : Nat) : Nat → Nat
  | 0 => 0
  | width + 1 => (data[place]?.getD 0).toNat + 256 * number data (place + 1) width

def numberBytes (n : Nat) : Nat → List UInt8
  | 0 => []
  | width + 1 => n.toUInt8 :: numberBytes (n / 256) width

def largest (width : Nat) : Nat := 1 <<< (8 * width) - 1

/-- What the bytes from 128 on stand for in names that are not marked as UTF-8. -/
def highChars : List Char :=
  ("ÇüéâäàåçêëèïîìÄÅÉæÆôöòûùÿÖÜ¢£¥₧ƒáíóúñÑªº¿⌐¬½¼¡«»░▒▓│┤╡╢╖╕╣║╗╝╜╛┐└┴┬├─┼╞╟╚╔╩╦╠═╬╧╨╤╥╙╘╒╓╫╪┘┌█▄▌▐▀" ++
    "αßΓπΣσµτΦΘΩδ∞φε∩≡±≥≤⌠⌡÷≈°∙·√ⁿ²■\u00a0").toList

def highChar (byte : UInt8) : Char :=
  if byte < 128 then Char.ofNat byte.toNat else highChars.getD (byte.toNat - 128) ' '

/-- The text that the bytes of a name stand for; `flags` say whether they are UTF-8. -/
def nameOf (flags : Nat) (bytes : ByteArray) : Except ArchiveFault String :=
  if flags.testBit 11 then
    match String.fromUTF8? bytes with
    | some name => .ok name
    | none => .error .undecodableName
  else .ok (String.ofList (bytes.toList.map highChar))

/-! ### Marks -/

def headerMark : Nat := 0x04034b50
def entryMark : Nat := 0x02014b50
def endMark : Nat := 0x06054b50
def wideEndMark : Nat := 0x06064b50
def wideEndLocatorMark : Nat := 0x07064b50

end GraphDecl.Zip
