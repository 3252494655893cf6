import GraphDecl.Text.Cutting

/-!
Descriptions as TypeScript comment blocks. A description is trimmed and cut into lines; a line cannot
close the block, nor does it end in blanks.
-/

namespace GraphDecl.Rendering

/-- Puts a backslash into every `*/`. -/
def keepOpen : List Char → List Char
  | [] => []
  | '*' :: '/' :: r => '*' :: '\\' :: '/' :: keepOpen r
  | c :: r => c :: keepOpen r

/-- One line of a block: ` * ` and the text, without blanks at the end. -/
def commentLine (line : List Char) : String :=
  String.ofList (Text.trimRight (' ' :: '*' :: ' ' :: keepOpen line))

/-- The lines of the block for a description; none if there is no description or an empty one. -/
def commentLines : Option String → List String
  | none => []
  | some text =>
    if text.isEmpty then []
    else "/**" :: (Text.lines (Text.trim text.toList)).map commentLine ++ [" */"]

/-- A line moved right by `width` columns; an empty line stays empty. -/
def indentLine (width : Nat) (line : String) : String :=
  if line.isEmpty then line else String.ofList (List.replicate width ' ') ++ line

def indent (width : Nat) (lines : List String) : List String := lines.map (indentLine width)

/-- The text of a list of lines, each of them ended by a line feed. -/
def unlines (lines : List String) : String := String.join (lines.map (· ++ "\n"))

/-- The block for a description, moved right by `width` columns. -/
def comment (text : Option String) (width : Nat) : String := unlines (indent width (commentLines text))

end GraphDecl.Rendering
