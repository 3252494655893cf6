import GraphDecl.Packing.Unpacker

/-!
Unpacking data packed with LZMA. It consists of single bytes and repetitions of earlier bytes. All are
written bit by bit as one number, which says for each bit in which part of a range it lies; the likelier a
bit, the larger its part. How likely bits are is estimated from the bits before.
-/

namespace GraphDecl.Lzma

open Packing

inductive Fault
  /-- The numbers in front of the data make no sense. -/
  | properties
  | data
  deriving DecidableEq, Repr

structure Progress where
  /-- The bytes that are read. -/
  place : Nat
  range : UInt32
  /-- The number as it lies in the range. -/
  code : UInt32
  /-- For each kind of bit, how many times in 2048 it is clear. -/
  chances : Array UInt32
  out : ByteArray
  portion : Portion

abbrev Step (α : Type) := Unpacker Progress Fault α

/-! ### Bits -/

/-- Makes sure that the byte at the place is given. -/
def demandByte : Step Unit := do
  let place := (← get).place
  unless place < (← get).portion.given do
    let size := (← get).out.size
    match (← read).next? place size (← get).portion with
    | some portion => modify fun p => { p with portion }
    | none => throw .exhausted

def byte : Step UInt8 := do
  demandByte
  let place := (← get).place
  modify fun p => { p with place := p.place + 1 }
  return (← read).packed[place]?.getD 0

/-- Makes a range that has become small larger. -/
def widen : Step Unit := do
  if (← get).range < 0x1000000 then
    let low ← byte
    modify fun p => { p with range := p.range <<< 8, code := (p.code <<< 8) ||| low.toUInt32 }

def bit (kind : Nat) : Step Nat := do
  widen
  let chance := (← get).chances.getD kind 0
  let part := ((← get).range >>> 11) * chance
  if (← get).code < part then
    modify fun p => { p with
      range := part, chances := p.chances.setIfInBounds kind (chance + (2048 - chance) >>> 5) }
    return 0
  else
    modify fun p => { p with
      range := p.range - part, code := p.code - part
      chances := p.chances.setIfInBounds kind (chance - chance >>> 5) }
    return 1

/-- A number of `width` bits that are as likely set as clear, the highest one first; they follow the bits
`high`. -/
def evenBits (high : Nat) : Nat → Step Nat
  | 0 => return high
  | width + 1 => do
    widen
    modify fun p => { p with range := p.range >>> 1 }
    if (← get).range ≤ (← get).code then
      modify fun p => { p with code := p.code - p.range }
      evenBits (2 * high + 1) width
    else evenBits (2 * high) width

/-- Bits whose kinds are told apart by the bits before. They follow the bits of `node`, which starts
with a set bit. -/
def branch (kind node : Nat) : Nat → Step Nat
  | 0 => return node
  | width + 1 => do branch kind (2 * node + (← bit (kind + node))) width

/-- A number of `width` such bits, the highest one first. -/
def tree (kind width : Nat) : Step Nat := do return (← branch kind 1 width) - 1 <<< width

/-- Such bits with the lowest one first. -/
def treeUp (kind node : Nat) : Nat → Step Nat
  | 0 => return 0
  | width + 1 => do
    let low ← bit (kind + node)
    return low + 2 * (← treeUp kind (2 * node + low) width)

/-! ### Kinds of bits -/

/-- What came last decides on kinds of bits: below 7 it was a single byte. -/
abbrev Situation := Nat

/-- The kind of a bit that says whether a repetition follows. -/
def repetitionKind (s : Situation) (phase : Nat) : Nat := 16 * s + phase

/-- Whether a repetition has one of the last four distances. -/
def oldKind (s : Situation) : Nat := 192 + s

/-- Whether that is not the first of them. -/
def notFirstKind (s : Situation) : Nat := 204 + s

/-- Whether it is not the second either. -/
def notSecondKind (s : Situation) : Nat := 216 + s

/-- Whether it is the fourth, not the third. -/
def notThirdKind (s : Situation) : Nat := 228 + s

/-- Whether a repetition with the first of them has more than one byte. -/
def longKind (s : Situation) (phase : Nat) : Nat := 240 + 16 * s + phase

/-- The kinds of bits that say how many bits a distance has, for a repetition of some length. -/
def slotKind (length : Nat) : Nat := 432 + 64 * min (length - 2) 3

/-- The lower bits of distances that are not large. -/
def lowerKind : Nat := 688

/-- The last four bits of large distances. -/
def lastKind : Nat := 816

/-- The length of a repetition with a new distance. -/
def lengthKind : Nat := 832

/-- The length of a repetition with an old distance. -/
def oldLengthKind : Nat := 1346

/-- The bits of single bytes. -/
def byteKind (context : Nat) : Nat := 1860 + 768 * context

/-! ### Bytes and repetitions -/

structure Properties where
  /-- How many bits of the byte before tell the kinds of bits of a byte apart. -/
  before : Nat
  /-- How many bits of its place do. -/
  placeBits : Nat
  /-- How many bits of the place matter for repetitions. -/
  phaseBits : Nat
  /-- How far back repetitions can start. -/
  window : Nat
  deriving DecidableEq, Repr

/-- A byte, given the byte that would come if the last repetition went on. As long as the bits agree
with that one, there are kinds of bits for set and clear ones. -/
def byteUnlike (kind given node : Nat) : Nat → Step Nat
  | 0 => return node
  | width + 1 => do
    let expected := given >>> width % 2
    let found ← bit (kind + 0x100 * (1 + expected) + node)
    if found = expected then byteUnlike kind given (2 * node + found) width
    else branch kind (2 * node + found) width

/-- The byte at a distance from the end. -/
def back (out : ByteArray) (distance : Nat) : Nat := (out[out.size - distance]?.getD 0).toNat

/-- A single byte; `distance` is that of the last repetition. -/
def single (p : Properties) (s : Situation) (distance : Nat) : Step Unit := do
  let out := (← get).out
  let last := if out.isEmpty then 0 else back out 1
  let kind := byteKind ((out.size % 1 <<< p.placeBits) <<< p.before + last >>> (8 - p.before))
  let given := back out distance
  let node ← if s < 7 then branch kind 1 8 else byteUnlike kind given 1 8
  modify fun p => { p with out := p.out.push node.toUInt8 }

/-- The length of a repetition. -/
def length (kind phase : Nat) : Step Nat := do
  if (← bit kind) = 0 then return 2 + (← tree (kind + 2 + 8 * phase) 3)
  else if (← bit (kind + 1)) = 0 then return 10 + (← tree (kind + 130 + 8 * phase) 3)
  else return 18 + (← tree (kind + 258) 8)

/-- How far back a repetition of some length starts. -/
def distance (length : Nat) : Step Nat := do
  let slot ← tree (slotKind length) 6
  let width := slot / 2 - 1
  let start := (2 + slot % 2) <<< width
  if slot < 4 then return slot + 1
  else if slot < 14 then
    return start + (← treeUp (lowerKind + start - slot - 1) 1 width) + 1
  else
    let middle ← evenBits 0 (width - 4)
    return start + 16 * middle + (← treeUp lastKind 1 4) + 1

/-- The distance that marks the end. -/
def endDistance : Nat := 1 <<< 32

def afterSingle (s : Situation) : Situation := if s < 4 then 0 else if s < 10 then s - 3 else s - 6

/-- Which of the last four distances a repetition has. -/
def oldDistance (s : Situation) : Step Nat := do
  if (← bit (notFirstKind s)) = 0 then return 0
  else if (← bit (notSecondKind s)) = 0 then return 1
  else if (← bit (notThirdKind s)) = 0 then return 2
  else return 3

/-- Everything up to the end mark. `distances` are the last four ones. A range takes less than 512 bits
before it is made larger, which bounds the number of steps. -/
def steps (p : Properties) : Nat → Situation → List Nat → Step Unit
  | 0, _, _ => throw .exhausted
  | bound + 1, s, distances => do
    let size := (← get).out.size
    let phase := size % 1 <<< p.phaseBits
    if (← bit (repetitionKind s phase)) = 0 then
      single p s (distances.headD 1)
      steps p bound (afterSingle s) distances
    else if (← bit (oldKind s)) = 0 then
      let length ← length lengthKind phase
      let distance ← distance length
      if distance = endDistance then
        widen
        if (← get).code ≠ 0 then broken .data
      else if min size p.window < distance then broken .data
      else
        modify fun p => { p with out := repeatBytes distance length p.out }
        steps p bound (if s < 7 then 7 else 10) (distance :: distances.take 3)
    else if size = 0 then broken .data
    else
      let index ← oldDistance s
      let distance := distances.getD index 1
      let isLong ← if index = 0 then bit (longKind s phase) else pure 1
      if isLong = 0 then
        modify fun p => { p with out := repeatBytes distance 1 p.out }
        steps p bound (if s < 7 then 9 else 11) distances
      else
        let length ← length oldLengthKind phase
        modify fun p => { p with out := repeatBytes distance length p.out }
        steps p bound (if s < 7 then 8 else 11) (distance :: distances.eraseIdx index)

/-! ### The whole -/

/-- Reads the number that is written, after a byte 0. -/
def start : Step Unit := do
  if (← byte) ≠ 0 then broken .data
  else for _ in List.range 4 do
    let low ← byte
    modify fun p => { p with code := (p.code <<< 8) ||| low.toUInt32 }

/-- A number, its lowest byte first. -/
def numberOfBytes (bytes : List UInt8) : Nat :=
  bytes.foldr (fun byte rest => byte.toNat + 256 * rest) 0

def Properties.ofBytes? : List UInt8 → Option Properties
  | numbers :: window =>
    let n := numbers.toNat
    let size := numberOfBytes window
    let p : Properties :=
      { before := n % 9, placeBits := n / 9 % 5, phaseBits := n / 45
        window := max 4096 ((size + 15) / 16 * 16) }
    if window.length = 4 ∧ n < 225 ∧ p.before + p.placeBits ≤ 4 then some p else none
  | [] => none

def someBytes (count : Nat) : Step (List UInt8) := (List.range count).mapM fun _ => byte

/-- Everything. In front of the data stand the version of the packer and the properties, with their
length; they are looked at once the data begins. -/
def stream (bound : Nat) : Step Unit := do
  let head ← someBytes 4
  let properties ← someBytes (numberOfBytes (head.drop 2))
  demandByte
  match Properties.ofBytes? properties with
  | none => broken .properties
  | some p =>
    let chances := Array.replicate (byteKind (1 <<< (p.before + p.placeBits))) 1024
    modify fun progress => { progress with chances }
    start
    steps p bound 0 [1, 1, 1, 1]

def unpack (supply : Supply) : Unpacked Fault :=
  Packing.run (fun p => (p.out, p.portion)) (stream (512 * (supply.packed.size + 1)))
    (⟨0, 0xFFFFFFFF, 0, #[], .empty, ·⟩) supply

end GraphDecl.Lzma
