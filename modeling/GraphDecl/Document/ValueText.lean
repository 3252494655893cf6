import GraphDecl.Document.Definition
import GraphDecl.Text.Cutting
import GraphDecl.Text.Digit

/-!
Values as messages write them, in GraphQL notation and on one line where possible.
-/

namespace GraphDecl

/-- How a character is written between quotes. -/
def escapeInString (c : Char) : List Char :=
  if c = '"' ∨ c = '\\' then ['\\', c]
  else if c = '\x08' then ['\\', 'b']
  else if c = '\t' then ['\\', 't']
  else if c = '\n' then ['\\', 'n']
  else if c = '\x0c' then ['\\', 'f']
  else if c = '\r' then ['\\', 'r']
  else if c < ' ' ∨ ('\x7f' ≤ c ∧ c ≤ '\u009f') then
    '\\' :: 'u' :: (Text.hexDigits 4 c.toNat).map Char.toUpper
  else [c]

def stringText (s : String) : String :=
  String.ofList ('"' :: s.toList.flatMap escapeInString ++ ['"'])

/-- Puts a backslash in front of three quotes in a row. -/
def escapeInBlock : List Char → List Char
  | '"' :: '"' :: '"' :: r => '\\' :: '"' :: '"' :: '"' :: escapeInBlock r
  | c :: r => c :: escapeInBlock r
  | [] => []

/-- A block string stands on lines of its own if it is long, has several lines, or ends in a way that
would run into the closing quotes. -/
def blockStringText (s : String) : String :=
  let isIndent (c : Option Char) := c == some ' ' || c == some '\t'
  let body := escapeInBlock s.toList
  let lines := Text.splitNewlines body
  let single := lines.length = 1
  let indented := 1 < lines.length ∧ (lines.drop 1).all fun l => l.isEmpty || isIndent l.head?
  let endsInQuotes := ['\\', '"', '"', '"'].isSuffixOf body
  let last := s.toList.getLast?
  let endsOpen := (last = some '"' ∧ ¬endsInQuotes) ∨ last = some '\\'
  let spread := ¬single ∨ 70 < s.length ∨ endsOpen ∨ indented ∨ endsInQuotes
  let first := if (spread ∧ ¬(single ∧ isIndent s.toList.head?)) ∨ indented then "\n" else ""
  "\"\"\"" ++ first ++ String.ofList body ++ (if spread ∨ endsOpen then "\n" else "") ++ "\"\"\""

mutual

def Value.text : Value → String
  | .variable n => "$" ++ n
  | .int s | .float s => s
  | .string s block => if block then blockStringText s else stringText s
  | .boolean b => if b then "true" else "false"
  | .null => "null"
  | .enum n => n
  | .list vs => "[" ++ Text.joinWith ", " (valueTexts vs) ++ "]"
  | .object fields => "\x7b" ++ Text.joinWith ", " (fieldTexts fields) ++ "\x7d"

def valueTexts : List Value → List String
  | [] => []
  | v :: vs => v.text :: valueTexts vs

def fieldTexts : List (String × Value) → List String
  | [] => []
  | (n, v) :: fields => (n ++ ": " ++ v.text) :: fieldTexts fields

end

end GraphDecl
