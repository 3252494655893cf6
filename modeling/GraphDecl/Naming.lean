import GraphDecl.Text.Digit
import GraphDecl.Text.Upper

/-!
Names of the generated declarations: upper camel case, and what it gives for operations.
-/

namespace GraphDecl

/-- Characters that stay where they are in a name: the decimal digits, the letters `a` to `z` and
what differs from one of those by case only. All others separate words. -/
def isWordChar (c : Char) : Bool :=
  Text.isDecimalDigit c || c.isAlpha || c == '\u0130' || c == '\u0131' || c == '\u017f' ||
  c == '\u212a'

/-- Drops the separators and upper-cases the character after each one, which is used up even if it is
a separator itself; only a line feed is looked at again. -/
def joinWords : List Char → List Char
  | [] => []
  | [c] => if isWordChar c then [c] else []
  | c :: d :: r =>
    if isWordChar c then c :: joinWords (d :: r)
    else if d = '\n' then joinWords (d :: r)
    else Text.upper d ++ joinWords r

/-- Upper camel case: `post_author` gives `PostAuthor`. -/
def camelCase (s : String) : String := String.ofList (Text.upperFirst (joinWords s.toList))

/-- Name of the type that an operation declares, such as `postsQuery`. -/
def operationTypeName (name operation : String) : String := name ++ camelCase operation

/-- Name of the namespace that an operation declares, such as `PostsQuery`. -/
def operationNamespaceName (name operation : String) : String :=
  camelCase name ++ camelCase operation

end GraphDecl
