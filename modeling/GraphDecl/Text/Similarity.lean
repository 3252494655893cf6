/-!
How alike two texts are: the longest stretch that they have in common, then those in front of it and
behind it, and so on, count against all characters of both.
-/

namespace GraphDecl.Text

def commonStart : List Char → List Char → Nat
  | a :: as, b :: bs => if a = b then commonStart as bs + 1 else 0
  | _, _ => 0

/-- A stretch of two texts: where it starts in each of them, and its length. -/
structure Stretch where
  left : Nat
  right : Nat
  length : Nat
  deriving DecidableEq, Repr

/-- The longest stretch that two texts have in common; of several the leftmost in `a`, then in `b`. -/
def longestStretch (a b : List Char) : Stretch :=
  let starts := (List.range a.length).flatMap fun i => (List.range b.length).map (i, ·)
  starts.foldl (fun best (i, j) =>
    let n := commonStart (a.drop i) (b.drop j)
    if best.length < n then ⟨i, j, n⟩ else best) ⟨0, 0, 0⟩

def commonLength (a b : List Char) : Nat :=
  match longestStretch a b with
  | ⟨i, j, n⟩ =>
    if _h : 0 < n ∧ i + n ≤ a.length then
      commonLength (a.take i) (b.take j) + n + commonLength (a.drop (i + n)) (b.drop (j + n))
    else 0
termination_by a.length
decreasing_by all_goals (simp only [List.length_take, List.length_drop]; omega)

/-- Whether common stretches make up at least three fifths of two texts. They are no longer than the
shorter text, so texts of very different lengths need no search. -/
def areNear (a b : List Char) : Bool :=
  let enough (common : Nat) : Bool := 3 * (a.length + b.length) ≤ 10 * common
  enough (min a.length b.length) && enough (commonLength a b)

/-- Whether `a` is no less like `word` than `b`; of two that are alike, the later one in order is. -/
def isNearer (word a b : String) : Bool :=
  let share (s : String) := commonLength s.toList word.toList
  let total (s : String) := s.length + word.length
  let left := share a * total b
  let right := share b * total a
  right < left || (left == right && decide (b ≤ a))

/-- The names that are like `word`, the three nearest of them at most, in order. -/
def nearNames (word : String) (names : List String) : List String :=
  let near := names.filter fun n => areNear n.toList word.toList
  ((near.mergeSort (isNearer word)).take 3).mergeSort fun a b => decide (a ≤ b)

end GraphDecl.Text
