import GraphDecl.Document.Excerpt
import GraphDecl.Document.Lexer

/-!
Where and why a text is no document.
-/

namespace GraphDecl

inductive SyntaxFault
  | lexical (error : LexicalError)
  /-- Another token or keyword was due. -/
  | expected (what : String) (found : Token)
  /-- No rule of the grammar continues with this token. -/
  | unexpected (found : Token)
  | variableInConstant (name : String)
  | reservedEnumValue (found : Token)
  /-- A description in front of something that takes none. -/
  | uselessDescription
  /-- A description in front of a query that consists of its selections only. -/
  | shorthandDescription
  | tooDeep
  deriving DecidableEq, Repr

def SyntaxFault.message : SyntaxFault → String
  | lexical e => e.message
  | expected what found => "Expected " ++ what ++ ", found " ++ found.describe ++ "."
  | unexpected found => "Unexpected " ++ found.describe ++ "."
  | variableInConstant name => "Unexpected variable '$" ++ name ++ "' in constant value."
  | reservedEnumValue found => found.describe ++ " is reserved and cannot be used for an enum value."
  | uselessDescription =>
    "Unexpected description, only GraphQL definitions support descriptions."
  | shorthandDescription =>
    "Unexpected description, descriptions are not supported on shorthand queries."
  | tooDeep => "Document is nested too deeply. Parsing aborted."

structure SyntaxError where
  fault : SyntaxFault
  location : Location
  deriving DecidableEq, Repr

namespace SyntaxError

def message (e : SyntaxError) : String := "Syntax Error: " ++ e.fault.message

def report (text : String) (e : SyntaxError) : String := Location.report text e.message e.location

end SyntaxError

end GraphDecl
