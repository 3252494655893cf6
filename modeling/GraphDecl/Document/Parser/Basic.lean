import GraphDecl.Document.SyntaxError

/-!
Reading from tokens. A reader takes tokens from the front of the list; where they lie in the text is not
visible to it. It looks one token ahead: taking a token brings the next one up, and if that one is
`invalid`, the reader stops there.
-/

namespace GraphDecl

/-- A fault and the number of tokens from the faulty one to the end. -/
structure ParseFault where
  remaining : Nat
  fault : SyntaxFault
  deriving DecidableEq, Repr

/-- The tokens that are left, with their number. -/
structure Remaining where
  tokens : List Token
  count : Nat
  count_eq : count = tokens.length

def Remaining.ofList (tokens : List Token) : Remaining := ⟨tokens, tokens.length, rfl⟩

abbrev Parser (α : Type) := StateT Remaining (Except ParseFault) α

namespace Parser

/-! ### Single tokens -/

def remaining : Parser Nat := fun ts => .ok (ts.count, ts)

def peek : Parser Token := fun ts => .ok (ts.tokens.headD .eof, ts)

/-- A fault at the place where `remaining` tokens were left. -/
def failAt {α : Type} (remaining : Nat) (fault : SyntaxFault) : Parser α :=
  fun _ => .error ⟨remaining, fault⟩

def fail {α : Type} (fault : SyntaxFault) : Parser α := fun ts => .error ⟨ts.count, fault⟩

/-- No rule goes on with the next token. -/
def unexpected {α : Type} : Parser α := do fail (.unexpected (← peek))

/-- Stops if the next token is `invalid`. -/
def checkNext : Parser Unit := fun ts =>
  match ts.tokens with
  | .invalid e :: _ => .error ⟨ts.count, .lexical e⟩
  | _ => .ok ((), ts)

/-- Takes a token; the last one stays. -/
def advance : Parser Unit := fun ts =>
  match ts with
  | ⟨_ :: t :: r, n, h⟩ => checkNext ⟨t :: r, n - 1, by simp [h]⟩
  | _ => .ok ((), ts)

def peekSecond : Parser Token := fun ts =>
  match ts.tokens with
  | _ :: .invalid e :: _ => .error ⟨ts.count - 1, .lexical e⟩
  | _ :: t :: _ => .ok (t, ts)
  | _ => .ok (.eof, ts)

def nextIs (p : Punctuator) : Parser Bool := return (← peek) == .punctuator p

def skip (p : Punctuator) : Parser Bool := do
  if ← nextIs p then
    advance
    return true
  else return false

def expect (p : Punctuator) : Parser Unit := do
  unless ← skip p do fail (.expected ("'" ++ p.text ++ "'") (← peek))

def expectName : Parser String := do
  match ← peek with
  | .name n =>
    advance
    return n
  | t => fail (.expected "Name" t)

def skipKeyword (word : String) : Parser Bool := do
  if (← peek) == .name word then
    advance
    return true
  else return false

def expectKeyword (word : String) : Parser Unit := do
  unless ← skipKeyword word do fail (.expected ("'" ++ word ++ "'") (← peek))

/-! ### Repetition -/

/-- `f`, in which the reader under definition may be used `depth` levels deep, and `bottom` where it is
used below that. -/
def unroll {α : Type} (bottom : Parser α) (f : Parser α → Parser α) : Nat → Parser α
  | 0 => bottom
  | depth + 1 => f fun ts => unroll bottom f depth ts

/-- A reader that may use itself after taking a token. There are never more levels than tokens. -/
def nested {α : Type} (f : Parser α → Parser α) : Parser α :=
  fun ts => unroll unexpected f (ts.count + 1) ts

/-- How many lists, objects and sets of selections can lie within one another. They count together: a
list in the arguments of a selection lies within all sets around that selection. -/
def maxDepth : Nat := 200

/-- A reader that may use itself, with no more than `depth` levels. It learns how many levels are left
for what lies within it. -/
def limited {α : Type} (f : Nat → Parser α → Parser α) : (depth : Nat) → Parser α
  | 0 => fail .tooDeep
  | depth + 1 => f depth fun ts => limited f depth ts

def itemsUntil {α : Type} (close : Punctuator) (item : Parser α) : Parser (List α) :=
  nested fun self => do
    if ← skip close then return []
    else
      let x ← item
      return x :: (← self)

/-- Items between two tokens, perhaps none. -/
def anyBetween {α : Type} (first close : Punctuator) (item : Parser α) : Parser (List α) := do
  expect first
  itemsUntil close item

def manyBetween {α : Type} (first close : Punctuator) (item : Parser α) : Parser (List α) := do
  expect first
  let x ← item
  return x :: (← itemsUntil close item)

/-- At least one item between two tokens, or nothing at all. -/
def optionalBetween {α : Type} (first close : Punctuator) (item : Parser α) : Parser (List α) := do
  if ← nextIs first then manyBetween first close item else return []

/-- At least one item, with `mark` between the items and perhaps in front of the first. -/
def separatedBy {α : Type} (mark : Punctuator) (item : Parser α) : Parser (List α) := do
  let _ ← skip mark
  nested fun self => do
    let x ← item
    if ← skip mark then return x :: (← self) else return [x]

/-- Items as long as the next token is `mark`, with which each of them starts. -/
def whileNext {α : Type} (mark : Punctuator) (item : Parser α) : Parser (List α) :=
  nested fun self => do
    if ← nextIs mark then
      let x ← item
      return x :: (← self)
    else return []

end Parser

end GraphDecl
