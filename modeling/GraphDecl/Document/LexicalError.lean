import GraphDecl.Text.Digit

/-!
What can be wrong with the characters of a document.
-/

namespace GraphDecl

inductive LexicalError
  /-- No token starts with this character. -/
  | unexpectedCharacter (c : Char)
  /-- A single quote where a token should start. -/
  | singleQuote
  /-- The line or the document ends inside a string. -/
  | unterminatedString
  /-- A backslash before a character that has no escape. -/
  | invalidEscape (sequence : List Char)
  /-- A `\u` escape that names no character. -/
  | invalidUnicodeEscape (sequence : List Char)
  /-- A number with a leading zero. -/
  | digitAfterZero (c : Char)
  /-- A number that lacks a digit, or is followed by a letter or a point. -/
  | expectedDigit (found : Option Char)
  deriving DecidableEq, Repr

namespace LexicalError

/-- A character as messages show it: in quotes if printable ASCII, else by its code point. -/
def showChar (c : Char) : String :=
  if '\x20' ≤ c ∧ c ≤ '\x7e' then String.ofList ['\'', c, '\''] else Text.codePointName c

def showChar? : Option Char → String
  | some c => showChar c
  | none => "<EOF>"

def message : LexicalError → String
  | unexpectedCharacter c => "Unexpected character: " ++ showChar c ++ "."
  | singleQuote =>
    "Unexpected single quote character ('), did you mean to use a double quote (\")?"
  | unterminatedString => "Unterminated string."
  | invalidEscape s => "Invalid character escape sequence: '" ++ String.ofList s ++ "'."
  | invalidUnicodeEscape s => "Invalid Unicode escape sequence: '" ++ String.ofList s ++ "'."
  | digitAfterZero c => "Invalid number, unexpected digit after 0: " ++ showChar c ++ "."
  | expectedDigit c => "Invalid number, expected digit but got: " ++ showChar? c ++ "."

end LexicalError

end GraphDecl
