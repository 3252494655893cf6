import GraphDecl.Scalar
import GraphDecl.Text.Cutting

/-!
Lists of the declared types that a declaration refers to: each name once, where it first occurs, and
no built-in scalars.
-/

namespace GraphDecl

def firstOccurrences : List String → List String
  | [] => []
  | n :: ns => n :: (firstOccurrences ns).filter (· ≠ n)

namespace Imports

/-- Joins import lists in order. -/
def merge (groups : List (List String)) : List String :=
  firstOccurrences (groups.flatten.filter (!isScalarName ·))

/-- The import of `names` from the module `./module` and a blank line; nothing for no names. -/
def statement (names : List String) (module : String) : String :=
  if names.isEmpty then ""
  else "import \x7b " ++ Text.joinWith ", " names ++ " \x7d from './" ++ module ++ "';\n\n"

end Imports

end GraphDecl
