/-!
Names in other scripts written with letters and digits of ASCII, and read again. The characters of ASCII come first;
then, for each other one in the order of their code points, a number says how many steps lead there from
the one before, where a step is a place in the text or the next code point.
-/

namespace GraphDecl.Web.Punycode

/-! ### Writing -/

/-- A digit of base 36: a letter or, from 26 on, a digit. -/
def digit (n : Nat) : Char := Char.ofNat (if n < 26 then 'a'.toNat + n else '0'.toNat + (n - 26))

/-- The number from which on a digit says that another one follows. It depends on the place of the digit
and on how large numbers have been. -/
def threshold (place bias : Nat) : Nat := max 1 (min 26 (36 * place - bias))

/-- The digits of a number from a place on; the first place is 1. -/
def digits (bias place n : Nat) : List Char :=
  let t := threshold place bias
  if n < t then [digit n]
  else digit (t + (n - t) % (36 - t)) :: digits bias (place + 1) ((n - t) / (36 - t))
termination_by n
decreasing_by
  have : 1 ≤ threshold place bias := Nat.le_max_left ..
  exact Nat.lt_of_le_of_lt (Nat.div_le_self ..) (by omega)

/-- How large numbers are, from one that has been made small. -/
def biasOf (n : Nat) : Nat :=
  if n ≤ 455 then 36 * n / (n + 38) else 36 + biasOf (n / 35)
termination_by n

structure Progress where
  out : List Char
  bias : Nat
  /-- The number that is next. -/
  steps : Nat
  /-- The characters that are written. -/
  written : Nat
  /-- Whether only characters of ASCII are. -/
  isFirst : Bool

/-- Goes past a character of the text, where those with the code point `n` are written. -/
def Progress.pass (p : Progress) (n : Nat) (c : Char) : Progress :=
  if c.toNat < n then { p with steps := p.steps + 1 }
  else if c.toNat = n then
    let small := if p.isFirst then p.steps / 700 else p.steps / 2
    { out := p.out ++ digits p.bias 1 p.steps
      bias := biasOf (small + small / (p.written + 1))
      steps := 0
      written := p.written + 1
      isFirst := false }
  else p

/-- Writes the characters with the code points `ns`, all of which are larger than those before `next`. -/
def writeFrom (text : List Char) (next : Nat) : List Nat → Progress → Progress
  | [], p => p
  | n :: ns, p =>
    let p := { p with steps := p.steps + (n - next) * (p.written + 1) }
    let p := text.foldl (fun p c => p.pass n c) p
    writeFrom text (n + 1) ns { p with steps := p.steps + 1 }

def encode (text : List Char) : List Char :=
  let plain := text.filter (·.toNat < 128)
  let others := ((text.filter (128 ≤ ·.toNat)).map (·.toNat)).eraseDups
  let start := if plain.isEmpty then [] else plain ++ ['-']
  (writeFrom text 128 (others.mergeSort (· ≤ ·)) ⟨start, 72, 0, plain.length, true⟩).out

/-! ### Reading -/

def digitValue? (c : Char) : Option Nat :=
  if 'a' ≤ c ∧ c ≤ 'z' then some (c.toNat - 'a'.toNat)
  else if '0' ≤ c ∧ c ≤ '9' then some (26 + (c.toNat - '0'.toNat))
  else none

/-- The number that digits spell from a place on, where a digit counts `weight` times, added to `sum`; and
what follows its last digit. -/
def readNumber (bias : Nat) : (place weight sum : Nat) → List Char → Option (Nat × List Char)
  | _, _, _, [] => none
  | place, weight, sum, c :: s => do
    let d ← digitValue? c
    let t := threshold place bias
    if d < t then some (sum + d * weight, s)
    else readNumber bias (place + 1) (weight * (36 - t)) (sum + d * weight) s

theorem length_lt_of_readNumber {bias place weight sum n : Nat} {s rest : List Char}
    (h : readNumber bias place weight sum s = some (n, rest)) : rest.length < s.length := by
  induction s generalizing place weight sum with
  | nil => simp [readNumber] at h
  | cons c s ih =>
    simp only [readNumber, Option.bind_eq_bind] at h
    cases hd : digitValue? c with
    | none => simp [hd] at h
    | some d =>
      simp only [hd, Option.bind_some] at h
      split at h
      · simp only [Option.some.injEq, Prod.mk.injEq] at h
        simp [h.2]
      · have := ih h
        simp only [List.length_cons]
        omega

def charAt? (n : Nat) : Option Char := if n.isValidChar then some (Char.ofNat n) else none

/-- Puts the characters that numbers lead to into a text, from a place and a code point on. -/
def readFrom (text : List Char) (place code bias : Nat) (isFirst : Bool) (s : List Char) :
    Option (List Char) :=
  match s with
  | [] => some text
  | c :: r =>
    match _h : readNumber bias 1 1 0 (c :: r) with
    | none => none
    | some (steps, rest) =>
      let room := text.length + 1
      let target := place + steps
      match charAt? (code + target / room) with
      | none => none
      | some new =>
        let small := if isFirst then steps / 700 else steps / 2
        readFrom (text.take (target % room) ++ new :: text.drop (target % room))
          (target % room + 1) (code + target / room) (biasOf (small + small / room)) false rest
termination_by s.length
decreasing_by exact length_lt_of_readNumber _h

/-- The text that letters and digits of ASCII stand for. What is in front of the last hyphen are its
characters of ASCII. -/
def decode? (s : List Char) : Option (List Char) :=
  let numbers := (s.reverse.takeWhile (· ≠ '-')).reverse
  readFrom (s.take (s.length - numbers.length - 1)) 0 128 72 true numbers

end GraphDecl.Web.Punycode
