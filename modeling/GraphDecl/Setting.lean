import GraphDecl.Text.Cutting
import GraphDecl.Text.Quoted

/-!
Values that options are given, before it is known whether they fit.
-/

namespace GraphDecl

inductive Setting
  | null
  | bool (value : Bool)
  | int (value : Int)
  | text (value : String)
  | list (items : List Setting)
  | record (fields : List (String × Setting))
  deriving Repr, Inhabited

namespace Setting

mutual

def shown : Setting → String
  | null => "None"
  | bool b => if b then "True" else "False"
  | int n => toString n
  | text s => Text.quoted s
  | list items => "[" ++ Text.joinWith ", " (shownItems items) ++ "]"
  | record fields => "\x7b" ++ Text.joinWith ", " (shownFields fields) ++ "\x7d"

def shownItems : List Setting → List String
  | [] => []
  | x :: xs => x.shown :: shownItems xs

def shownFields : List (String × Setting) → List String
  | [] => []
  | (k, v) :: rest => (Text.quoted k ++ ": " ++ v.shown) :: shownFields rest

end

def text? : Setting → Option String
  | text s => some s
  | _ => none

end Setting

/-- A named value that is none of those that there are. -/
structure UnknownChoice where
  value : Setting
  choices : String
  deriving Repr

def UnknownChoice.message (e : UnknownChoice) : String :=
  e.value.shown ++ " is not a valid " ++ e.choices

end GraphDecl
