import GraphDecl.Files.ArchiveFault
import GraphDecl.Packing.Checksum
import GraphDecl.Packing.Bzip2

/-!
The packed data of a member, and the bytes that it unpacks to.
-/

namespace GraphDecl.Zip

open Packing

inductive Method
  | stored | deflated | bzip2 | lzma
  deriving DecidableEq, Repr

def Method.ofNumber? : Nat → Option Method
  | 0 => some .stored
  | 8 => some .deflated
  | 12 => some .bzip2
  | 14 => some .lzma
  | _ => none

structure Packed where
  name : String
  method : Method
  bytes : ByteArray
  /-- How many there should be; the file may end first. -/
  packedSize : Nat
  /-- How many bytes the member has, and their checksum. -/
  size : Nat
  checksum : Nat

namespace Packed

/-- What there is to unpack. Only what is packed with Deflate is unpacked in bounded portions. -/
def supply (p : Packed) : Supply := ⟨p.bytes, p.packedSize, p.size, p.method = .deflated⟩

/-- The unpacked bytes, and whether it is known that these are all. -/
def unpackAll (p : Packed) : Except ArchiveFault (ByteArray × Bool) :=
  match p.method with
  | .stored => .ok (p.bytes, false)
  | .deflated =>
    let u := Inflate.unpack p.supply
    match u.fault? with
    | some fault => .error (.deflate fault)
    | none => .ok (u.bytes, u.isEnded)
  | .bzip2 =>
    let u := Bzip2.unpack p.supply
    if u.fault?.isSome then .error .bzip2 else .ok (u.bytes, u.isEnded)
  | .lzma =>
    let u := Lzma.unpack p.supply
    match u.fault? with
    | some fault => .error (.lzma fault)
    | none => .ok (u.bytes, u.isEnded)

/-- The bytes of the member: as many as it is said to have, if there are so many. -/
def unpack (p : Packed) : Except ArchiveFault ByteArray := do
  let isCut := p.bytes.size < p.packedSize
  if isCut && p.bytes.isEmpty then throw .dataCut
  let (bytes, isEnded) ← p.unpackAll
  if isCut && !isEnded && bytes.size < p.size then throw .dataCut
  let bytes := bytes.extract 0 (min bytes.size p.size)
  if (Checksum.ofBytes bytes).toNat = p.checksum then return bytes
  else throw (.checksum p.name)

end Packed

end GraphDecl.Zip
