import GraphDecl.Text.Cutting

/-!
Places in a text by line and column, and excerpts of the text around them.
-/

namespace GraphDecl

/-- A line and a column, both counted from 1. -/
structure Location where
  line : Nat
  column : Nat
  deriving DecidableEq, Repr

/-- The place of the character at `offset`, in lines that end with LF, CR or CR LF. -/
def locate (text : String) (offset : Nat) : Location :=
  let lines := Text.splitNewlines (text.toList.take offset)
  ⟨lines.length, (lines.getLast?.getD []).length + 1⟩

namespace Location

/-! ### Excerpts -/

/-- A text moved right, to the end of a field of `width` columns. -/
def padLeft (width : Nat) (s : String) : String :=
  String.ofList (List.replicate (width - s.length) ' ') ++ s

/-- Lines with a margin in front of each; a bar stands between. -/
def withMargin (lines : List (String × String)) : String :=
  let width := (lines.map (·.1.length)).foldl max 0
  Text.joinWith "\n" (lines.map fun (margin, line) =>
    padLeft width margin ++ (if line.isEmpty then "" else " " ++ line))

/-- The pieces of 80 characters of a long line; the last one may be shorter. -/
def chunks (cs : List Char) : List String :=
  (List.range ((cs.length + 79) / 80)).map fun i => String.ofList ((cs.drop (80 * i)).take 80)

/-- The faulty line with a caret below the fault, and the lines around it. A line of more than 120
characters is shown alone and broken every 80. -/
def excerpt (text : String) (place : Location) : String :=
  let lines := (Text.splitNewlines text.toList).map String.ofList
  let margin (n : Nat) := toString n ++ " |"
  let line := lines.getD (place.line - 1) ""
  let caret (column : Nat) := ("|", padLeft column "^")
  if line.length > 120 then
    let row := place.column / 80
    let parts := chunks line.toList
    withMargin (
      [(margin place.line, parts.headD "")]
      ++ ((parts.take (row + 1)).drop 1).map (("|", ·))
      ++ [caret (place.column % 80)]
      ++ ((parts.drop (row + 1)).take 1).map (("|", ·)))
  else
    withMargin (
      ((lines.take (place.line - 1)).drop (place.line - 2)).map ((margin (place.line - 1), ·))
      ++ [(margin place.line, line), caret place.column]
      ++ ((lines.drop place.line).take 1).map ((margin (place.line + 1), ·)))

def report (text message : String) (place : Location) : String :=
  message ++ "\n\nGraphQL request:" ++ toString place.line ++ ":" ++ toString place.column ++ "\n" ++
    excerpt text place

end Location

end GraphDecl
