/-!
Wildcards in file names: `*` for any characters, `?` for one, `[…]` for one of a set and `[!…]` for one
outside it. A bracket that is never closed stands for itself.
-/

namespace GraphDecl

/-- One part of a character set: from `first` to `last`. -/
structure CharRange where
  first : Char
  last : Char
  deriving DecidableEq, Repr

def CharRange.single (c : Char) : CharRange := ⟨c, c⟩

def CharRange.contains (r : CharRange) (c : Char) : Bool := r.first ≤ c && c ≤ r.last

inductive Wildcard
  | char (c : Char)
  /-- One character, any. -/
  | one
  /-- Any characters, none included. -/
  | many
  | inSet (ranges : List CharRange)
  | outOfSet (ranges : List CharRange)
  deriving DecidableEq, Repr

namespace Wildcard

/-- The ranges that the text of a set writes. A hyphen between two characters makes a range, and one
that runs backwards is dropped. -/
def ranges : List Char → List CharRange
  | a :: '-' :: b :: r => if a ≤ b then ⟨a, b⟩ :: ranges r else ranges r
  | a :: r => .single a :: ranges r
  | [] => []

/-- The set for the text between brackets. It is looked for a leading `!` after ranges that run
backwards are dropped. -/
def ofSet (body : List Char) : Wildcard :=
  let rs := match body with
    | '!' :: r => CharRange.single '!' :: ranges r
    | r => ranges r
  match rs with
  | ⟨'!', last⟩ :: rest =>
    let excluded := if last = '!' then rest else CharRange.single '-' :: CharRange.single last :: rest
    if excluded.isEmpty then one else outOfSet excluded
  | rs => inSet rs

/-- The text of a set that starts here, and its length with the closing bracket. A `]` in front, also
one after `!`, is part of the set. -/
def setBody? (cs : List Char) : Option (List Char × Nat) :=
  let skipped := match cs with
    | '!' :: ']' :: _ => 2
    | '!' :: _ => 1
    | ']' :: _ => 1
    | _ => 0
  let body := cs.take skipped ++ (cs.drop skipped).takeWhile (· ≠ ']')
  if body.length < cs.length then some (body, body.length + 1) else none

def parse (cs : List Char) : List Wildcard :=
  match cs with
  | [] => []
  | '*' :: r => many :: parse r
  | '?' :: r => one :: parse r
  | '[' :: r =>
    match setBody? r with
    | some (body, n) => ofSet body :: parse (r.drop n)
    | none => char '[' :: parse r
  | c :: r => char c :: parse r
termination_by cs.length
decreasing_by all_goals (simp only [List.length_cons, List.length_drop]; omega)

def accepts : Wildcard → Char → Bool
  | char d, c => c == d
  | one, _ => true
  | many, _ => true
  | inSet rs, c => rs.any (·.contains c)
  | outOfSet rs, c => !rs.any (·.contains c)

/-- All endings of a text, the text itself first and the empty one last. -/
def endings : List Char → List (List Char)
  | [] => [[]]
  | c :: cs => (c :: cs) :: endings cs

/-- What may be left of a name after one part of a pattern, given what may be left before it. What is
left are endings of the name, and the longest one comes first. -/
def restsAfter (rests : List (List Char)) : Wildcard → List (List Char)
  | many => match rests with
    | longest :: _ => endings longest
    | [] => []
  | p => rests.filterMap fun rest => match rest with
    | c :: cs => if p.accepts c then some cs else none
    | [] => none

def matches? (pattern : List Wildcard) (name : List Char) : Bool :=
  (pattern.foldl restsAfter [name]).contains []

end Wildcard

/-- Whether a text holds characters that a pattern gives a meaning to. -/
def hasWildcard (s : List Char) : Bool := s.any fun c => c == '*' || c == '?' || c == '['

def fitsPattern (pattern name : String) : Bool :=
  Wildcard.matches? (Wildcard.parse pattern.toList) name.toList

end GraphDecl
