import GraphDecl.Text.Cutting

/-!
Text for a terminal, in plain form: without the sequences that set colours and move the cursor. Such a
sequence has parameters, then intermediate characters, both perhaps none, and a final character.
-/

namespace GraphDecl.CommandLine

def isParameter (c : Char) : Bool := '0' ≤ c && c ≤ '?'
def isIntermediate (c : Char) : Bool := ' ' ≤ c && c ≤ '/'
def isFinal (c : Char) : Bool := '@' ≤ c && c ≤ '~'

/-- What follows the control sequence of which the first character is taken. -/
def afterSequence? : List Char → Option (List Char)
  | '[' :: r => match (r.dropWhile isParameter).dropWhile isIntermediate with
    | c :: t => if isFinal c then some t else none
    | [] => none
  | _ => none

theorem length_lt_of_afterSequence? {s t : List Char} (h : afterSequence? s = some t) :
    t.length < s.length := by
  unfold afterSequence? at h
  split at h
  · rename_i r
    have hr := ((List.dropWhile_sublist isIntermediate).trans
      (List.dropWhile_sublist isParameter (l := r))).length_le
    split at h
    · rename_i c u hu
      rw [hu] at hr
      split at h
      · simp only [Option.some.injEq] at h
        subst h
        simp only [List.length_cons] at hr ⊢
        omega
      · simp at h
    · simp at h
  · simp at h

def plainText (s : List Char) : List Char :=
  match s with
  | [] => []
  | c :: r =>
    if c = '\x1b' then
      match _h : afterSequence? r with
      | some t => plainText t
      | none => c :: plainText r
    else c :: plainText r
termination_by s.length
decreasing_by
  · have := length_lt_of_afterSequence? _h
    simp only [List.length_cons]
    omega
  all_goals simp

/-- Every CR LF as LF. -/
def dropReturns : List Char → List Char
  | '\r' :: '\n' :: r => '\n' :: dropReturns r
  | c :: r => c :: dropReturns r
  | [] => []

end GraphDecl.CommandLine
