/-!
Type references as written in a document: a name within any number of list brackets, each layer
with or without a `!`.
-/

namespace GraphDecl

/-- `bang` tells whether the layer is written with a `!`. -/
inductive TypeRef
  | named (name : String) (bang : Bool)
  | list (element : TypeRef) (bang : Bool)
  deriving DecidableEq, Repr

namespace TypeRef

def name : TypeRef → String
  | named n _ => n
  | list t _ => t.name

/-- Whether the outermost layer has a `!`. -/
def isRequired : TypeRef → Bool
  | named _ bang => bang
  | list _ bang => bang

/-- The reference as a document writes it, without blanks. -/
def text : TypeRef → String
  | named n bang => if bang then n ++ "!" else n
  | list t bang => "[" ++ t.text ++ (if bang then "]!" else "]")

end TypeRef

end GraphDecl
