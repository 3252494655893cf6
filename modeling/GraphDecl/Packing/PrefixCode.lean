import GraphDecl.Packing.Unpacker

/-!
Codes for symbols in words of different length, none of which begins another one. A code is given by the
lengths of its words alone.
-/

namespace GraphDecl

open Packing

/-- Words of one length are successive numbers, as are their symbols in `symbols`, and longer words go on
where the shorter ones leave off. -/
structure PrefixCode where
  /-- How many words there are of each length from 1 on. -/
  counts : List Nat
  symbols : Array Nat

namespace PrefixCode

/-- The code in which symbol `i` has a word of the `i`-th length, and none if that is 0. Words of up to
`longest` bits are looked for. -/
def ofLengths (lengths : List Nat) (longest : Nat) : PrefixCode :=
  let used := lengths.zipIdx.filter fun (length, _) => length ≠ 0
  { counts := (List.range longest).map fun n => lengths.count (n + 1)
    symbols := ((used.mergeSort fun a b => a.1 ≤ b.1).map (·.2)).toArray }

/-- How many words of the last length are left free, where `free` words of the length before are; `none`
if somewhere more words are taken than free. -/
def freeAfter (free : Nat) : List Nat → Option Nat
  | [] => some free
  | count :: counts => if 2 * free < count then none else freeAfter (2 * free - count) counts

/-- Whether no sequence of bits is left without meaning and none has two. -/
def isComplete (c : PrefixCode) : Bool := freeAfter 1 c.counts == some 0

/-- Reads on from the bits `word`. The words that have one more bit start at `2 * first`, and their
symbols at `index`. -/
@[specialize]
def symbolFrom {σ φ : Type} (bit : Unpacker σ φ Nat) (symbols : Array Nat) (word first index : Nat) :
    List Nat → Unpacker σ φ (Option Nat)
  | [] => return none
  | count :: counts => do
    let word := 2 * word + (← bit)
    let first := 2 * first
    if word < first + count then return symbols[index + (word - first)]?
    else symbolFrom bit symbols word (first + count) (index + count) counts

/-- The symbol of the next word; `none` for bits that are no word. -/
@[specialize]
def symbol? {σ φ : Type} (bit : Unpacker σ φ Nat) (c : PrefixCode) : Unpacker σ φ (Option Nat) :=
  symbolFrom bit c.symbols 0 0 0 c.counts

end PrefixCode

end GraphDecl
