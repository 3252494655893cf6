import GraphDecl.Packing.PrefixCode

/-!
Unpacking data packed with Deflate. It consists of blocks, in which single bytes and repetitions of
earlier bytes are written in words of different length, the frequent ones short. Bits are taken from the
low end of each byte.
-/

namespace GraphDecl.Inflate

open Packing

inductive Fault
  | blockKind
  /-- The length of a block of plain bytes does not fit its complement. -/
  | plainLength
  | codeSizes
  /-- The code for word lengths. -/
  | lengthCode
  | lengthRepeat
  /-- No word says that the block ends. -/
  | noBlockEnd
  | literalCode | distanceCode
  | literalWord | distanceWord
  /-- A repetition starts before the first byte. -/
  | distance
  deriving DecidableEq, Repr

def Fault.message : Fault → String
  | blockKind => "invalid block type"
  | plainLength => "invalid stored block lengths"
  | codeSizes => "too many length or distance symbols"
  | lengthCode => "invalid code lengths set"
  | lengthRepeat => "invalid bit length repeat"
  | noBlockEnd => "invalid code -- missing end-of-block"
  | literalCode => "invalid literal/lengths set"
  | distanceCode => "invalid distances set"
  | literalWord => "invalid literal/length code"
  | distanceWord => "invalid distance code"
  | distance => "invalid distance too far back"

structure Progress where
  /-- The bits that are read. -/
  place : Nat
  out : ByteArray
  portion : Portion

abbrev Step (α : Type) := Unpacker Progress Fault α

/-- Goes on to the next portion. A byte of which a bit is read is used up. -/
def nextPortion : Step Unit := do
  let size := (← get).out.size
  match (← read).next? (((← get).place + 7) / 8) size (← get).portion with
  | some portion => modify fun p => { p with portion }
  | none => throw .exhausted

/-- Makes sure that the byte at the place is given. -/
def demandByte : Step Unit := do
  unless (← get).place / 8 < (← get).portion.given do
    nextPortion
    unless (← get).place / 8 < (← get).portion.given do throw .exhausted

/-- Makes sure that a byte may be put. -/
def demandRoom : Step Unit := do
  match (← get).portion.room with
  | some room => unless (← get).out.size < room do nextPortion
  | none => return

/-- How many of `length` bytes may be put now. -/
def putNow (length : Nat) : Step Nat := do
  match (← get).portion.room with
  | some room => return min length (room - (← get).out.size)
  | none => return length

def bit : Step Nat := do
  demandByte
  let place := (← get).place
  modify fun p => { p with place := p.place + 1 }
  return ((← read).packed[place / 8]?.getD 0).toNat >>> (place % 8) % 2

/-- A number of `width` bits, the lowest one first. -/
def bits : Nat → Step Nat
  | 0 => return 0
  | width + 1 => do
    let low ← bit
    return low + 2 * (← bits width)

def put (byte : UInt8) : Step Unit := do
  demandRoom
  modify fun p => { p with out := p.out.push byte }

/-- Repeats bytes that start `distance` bytes before the end. At least one of them is put in each of
`bound` steps. -/
def putAgain (distance : Nat) : (bound : Nat) → (length : Nat) → Step Unit
  | 0, _ => return
  | bound + 1, length => do
    demandRoom
    let count ← putNow length
    modify fun p => { p with out := repeatBytes distance count p.out }
    if count < length then putAgain distance bound (length - count)

/-! ### Codes -/

/-- The code with words of these lengths. One without words has a place for a word of one bit. -/
def codeOf (lengths : List Nat) : PrefixCode := .ofLengths lengths (lengths.foldl max 1)

/-- Whether a code has at most words of one bit, and some are free. -/
def isTiny (c : PrefixCode) : Bool := c.counts.length == 1 && c.symbols.size < 2

def nextSymbol (c : PrefixCode) (fault : Fault) : Step Nat := do
  match ← c.symbol? bit with
  | some symbol => return symbol
  | none => broken fault

/-! ### Blocks -/

/-- Numbers written as a start and some bits that are added to it: the starts follow one another from
`first` on, so that each leaves room for the bits of the one before. -/
def scale (first : Nat) : List Nat → List (Nat × Nat)
  | [] => []
  | width :: widths => (first, width) :: scale (first + 2 ^ width) widths

/-- How long a repetition is. The longest has a symbol of its own. -/
def lengthScale : List (Nat × Nat) :=
  (scale 3 ([0, 0, 0, 0] ++ [0, 1, 2, 3, 4, 5].flatMap (List.replicate 4 ·))).take 28 ++ [(258, 0)]

/-- How far back it starts. -/
def distanceScale : List (Nat × Nat) :=
  scale 1 ([0, 0] ++ (List.range 14).flatMap (List.replicate 2 ·))

def scaled (steps : List (Nat × Nat)) (symbol : Nat) (fault : Fault) : Step Nat :=
  match steps[symbol]? with
  | some (start, width) => do return start + (← bits width)
  | none => broken fault

/-- The rest of a block of bytes and repetitions. Every word takes a bit, which bounds their number. -/
def words (literals distances : PrefixCode) : Nat → Step Unit
  | 0 => throw .exhausted
  | bound + 1 => do
    let symbol ← nextSymbol literals .literalWord
    if symbol < 256 then
      put symbol.toUInt8
      words literals distances bound
    else if symbol = 256 then return
    else
      let length ← scaled lengthScale (symbol - 257) .literalWord
      let distance ← scaled distanceScale (← nextSymbol distances .distanceWord) .distanceWord
      demandRoom
      if (← get).out.size < distance then broken .distance
      else
        putAgain distance length length
        words literals distances bound

/-- Puts plain bytes, at least one of them in each of `bound` steps. -/
def putPlain : (bound : Nat) → (length : Nat) → Step Unit
  | 0, _ => return
  | _, 0 => return
  | bound + 1, length => do
    demandRoom
    demandByte
    let start := (← get).place / 8
    let count := min (← putNow length) ((← get).portion.given - start)
    let bytes := (← read).packed.extract start (start + count)
    modify fun p => { p with place := p.place + 8 * count, out := p.out ++ bytes }
    putPlain bound (length - count)

/-- A block of plain bytes, which starts at a whole byte. -/
def plain : Step Unit := do
  modify fun p => { p with place := (p.place + 7) / 8 * 8 }
  let length ← bits 16
  let complement ← bits 16
  if length + complement ≠ 0xFFFF then broken .plainLength
  else putPlain length length

/-- The code for bytes and lengths of blocks that bring no code of their own. -/
def usualLiterals : PrefixCode :=
  codeOf (List.replicate 144 8 ++ List.replicate 112 9 ++ List.replicate 24 7 ++ List.replicate 8 8)

def usualDistances : PrefixCode := codeOf (List.replicate 32 5)

/-- The order in which the word lengths of the code for word lengths are given. -/
def lengthOrder : List Nat := [16, 17, 18, 0, 8, 7, 9, 6, 10, 5, 11, 4, 12, 3, 13, 2, 14, 1, 15]

/-- Word lengths after those `sofar`: a length, or a repetition of the last one or of 0. Bits that are no
word of the code stand for 0. -/
def wordLengths (code : PrefixCode) (wanted : Nat) : Nat → List Nat → Step (List Nat)
  | 0, _ => throw .exhausted
  | bound + 1, sofar =>
    if wanted ≤ sofar.length then return sofar
    else do
      let more ← match (← code.symbol? bit).getD 0 with
        | 16 => do
          let count ← bits 2
          match sofar.getLast? with
          | some last => pure (List.replicate (3 + count) last)
          | none => broken .lengthRepeat
        | 17 => do pure (List.replicate (3 + (← bits 3)) 0)
        | 18 => do pure (List.replicate (11 + (← bits 7)) 0)
        | length => pure [length]
      if wanted < sofar.length + more.length then broken .lengthRepeat
      else wordLengths code wanted bound (sofar ++ more)

/-- The codes that a block brings, for bytes with lengths and for distances. -/
def ownCodes : Step (PrefixCode × PrefixCode) := do
  let literals := 257 + (← bits 5)
  let distances := 1 + (← bits 5)
  let sizes := 4 + (← bits 4)
  if 286 < literals ∨ 30 < distances then broken .codeSizes
  else
    let given ← (List.range sizes).mapM fun _ => bits 3
    let code := codeOf
      ((List.range 19).map fun symbol => (given[lengthOrder.idxOf symbol]?).getD 0)
    if !code.isComplete && !code.symbols.isEmpty then broken .lengthCode
    else
      let all ← wordLengths code (literals + distances) (literals + distances + 1) []
      let literalCode := codeOf (all.take literals)
      let distanceCode := codeOf (all.drop literals)
      if all[256]? = some 0 then broken .noBlockEnd
      else if !literalCode.isComplete && !isTiny literalCode then broken .literalCode
      else if !distanceCode.isComplete && !isTiny distanceCode then broken .distanceCode
      else return (literalCode, distanceCode)

/-- The remaining blocks; the last one says that it is. -/
def blocks (bound : Nat) : Nat → Step Unit
  | 0 => throw .exhausted
  | n + 1 => do
    let last ← bit
    match ← bits 2 with
      | 0 => plain
      | 1 => words usualLiterals usualDistances bound
      | 2 => do
        let (literals, distances) ← ownCodes
        words literals distances bound
      | _ => broken .blockKind
    if last = 1 then return else blocks bound n

def unpack (supply : Supply) : Unpacked Fault :=
  let bound := 8 * supply.packed.size + 1
  Packing.run (fun p => (p.out, p.portion)) (blocks bound bound) (⟨0, .empty, ·⟩) supply

end GraphDecl.Inflate
