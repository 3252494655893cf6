/-!
Packed data is read and unpacked in portions. A portion is over where its packed bytes are used up, or where
it has brought as many bytes as it may. Then it shows whether there is another one; what lies in portions
that are not needed does not matter.
-/

namespace GraphDecl.Packing

/-- Packed data and what is known about it. -/
structure Supply where
  /-- The bytes that are there. -/
  packed : ByteArray
  /-- How many there should be. -/
  packedSize : Nat
  /-- How many bytes are wanted in all. -/
  size : Nat
  /-- Whether there is a bound on the bytes that a portion brings. -/
  isBounded : Bool

structure Portion where
  /-- How many packed bytes are given, with those of earlier portions. -/
  given : Nat
  /-- How many bytes there may be after it, with those of earlier portions. -/
  room : Option Nat
  /-- How many bytes it should bring. -/
  wanted : Nat
  /-- How many bytes there were before it. -/
  before : Nat

namespace Supply

/-- How many bytes are asked for at a time. -/
def pieceSize : Nat := 65536

/-- How many packed bytes are read at least, if there are so many. -/
def leastSize : Nat := 4096

/-- A portion that should bring `wanted` bytes, where `out` have been put out and `left` of the `given`
packed bytes are left. There is none if packed bytes are missing. -/
def portion? (s : Supply) (given left out wanted : Nat) : Option Portion :=
  let more := if wanted ≤ left then 0 else min (max (wanted - left) leastSize) (s.packedSize - given)
  let reached := min s.packed.size (given + more)
  if 0 < more ∧ reached = given then none
  else some
    { given := reached
      room := if s.isBounded then some (out + max wanted leastSize) else none
      wanted, before := out }

def first? (s : Supply) : Option Portion := s.portion? 0 0 0 pieceSize

/-- The portion after another one, in which `taken` packed bytes have been used up and `out` bytes have been
put out, counted from the first portion on. What the last packed bytes stand for has no bound. -/
def next? (s : Supply) (taken out : Nat) (p : Portion) : Option Portion :=
  if s.packedSize ≤ p.given ∧ p.given ≤ taken then p.room.map fun _ => { p with room := none }
  else if s.size ≤ out then none
  else
    let brought := out - p.before
    s.portion? p.given (p.given - taken) out
      (if brought < p.wanted then p.wanted - brought
       else pieceSize - (brought - p.wanted) % pieceSize)

/-- Whether a portion is one that the last packed bytes still bring. -/
def isLast (s : Supply) (p : Portion) : Bool := s.isBounded && p.room.isNone

end Supply

end GraphDecl.Packing
