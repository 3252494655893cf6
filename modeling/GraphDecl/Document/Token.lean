import GraphDecl.Document.LexicalError

/-!
The significant tokens of a document: names, punctuators, numbers and strings. White space, commas,
byte order marks and comments stand between tokens and mean nothing.
-/

namespace GraphDecl

inductive Punctuator
  | bang | dollar | amp | parenL | parenR | spread | colon | equals | atSign | bracketL | bracketR
  | braceL | pipe | braceR
  deriving DecidableEq, Repr

namespace Punctuator

def text : Punctuator → String
  | bang => "!"
  | dollar => "$"
  | amp => "&"
  | parenL => "("
  | parenR => ")"
  | spread => "..."
  | colon => ":"
  | equals => "="
  | atSign => "@"
  | bracketL => "["
  | bracketR => "]"
  | braceL => "\x7b"
  | pipe => "|"
  | braceR => "\x7d"

def ofChar? : Char → Option Punctuator
  | '!' => some bang
  | '$' => some dollar
  | '&' => some amp
  | '(' => some parenL
  | ')' => some parenR
  | ':' => some colon
  | '=' => some equals
  | '@' => some atSign
  | '[' => some bracketL
  | ']' => some bracketR
  | '\x7b' => some braceL
  | '|' => some pipe
  | '\x7d' => some braceR
  | _ => none

end Punctuator

/-- A token without its place. Numbers keep their text, strings have their escapes resolved. The last
token of a document is `eof`, or `invalid` where its characters form no token. -/
inductive Token
  | punctuator (p : Punctuator)
  | name (value : String)
  | int (value : String)
  | float (value : String)
  | string (value : String)
  | blockString (value : String)
  | eof
  | invalid (error : LexicalError)
  deriving DecidableEq, Repr

namespace Token

/-- The text that a token carries beyond its kind. -/
def value? : Token → Option String
  | name v | int v | float v | string v | blockString v => some v
  | punctuator _ | eof | invalid _ => none

def describe : Token → String
  | punctuator p => "'" ++ p.text ++ "'"
  | name v => "Name '" ++ v ++ "'"
  | int v => "Int '" ++ v ++ "'"
  | float v => "Float '" ++ v ++ "'"
  | string v => "String '" ++ v ++ "'"
  | blockString v => "BlockString '" ++ v ++ "'"
  | eof => "<EOF>"
  | invalid e => e.message

end Token

/-- A token and its place: it covers the characters from offset `start` up to, and without, `stop`.
For an `invalid` token both are the offset of the fault. -/
structure Lexeme where
  token : Token
  start : Nat
  stop : Nat
  deriving DecidableEq, Repr

end GraphDecl
