import GraphDecl.Schema.Basic
import GraphDecl.Text.Cutting

/-!
Dotted paths from a type down its fields. List and non-null layers do not matter on the way; the field
at the end keeps them.
-/

namespace GraphDecl.Schema

/-- A field of an object, interface or input type. -/
def findField? (s : Schema) (type name : String) : Option AnyField := do
  (← s.find? type).content.field? name

def findOutputField? (s : Schema) (type name : String) : Option AnyField := do
  let t ← s.find? type
  if t.content.isComposite then t.content.field? name else none

/-- Goes down from a field; every step leads through an object or interface. -/
def descend? (s : Schema) (start : AnyField) : List String → Option AnyField
  | [] => some start
  | name :: names => do s.descend? (← s.findOutputField? start.type.name name) names

/-- The field that names lead to from `root`, which may also be an input type. -/
def fieldAlong? (s : Schema) (root : String) : List String → Option AnyField
  | [] => none
  | name :: names => do s.descend? (← s.findField? root name) names

def fieldAt? (s : Schema) (root path : String) : Option AnyField :=
  s.fieldAlong? root (Text.pieces '.' path)

end GraphDecl.Schema
