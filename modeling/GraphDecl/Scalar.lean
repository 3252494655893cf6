/-!
The five scalars that every schema has, and the TypeScript types that stand for them. Any other
name, also of a scalar that a schema declares, is a declared type and keeps its name.
-/

namespace GraphDecl

inductive Scalar
  | boolean | float | string | int | id
  deriving DecidableEq, Repr

namespace Scalar

def all : List Scalar := [.boolean, .float, .string, .int, .id]

def name : Scalar → String
  | boolean => "Boolean"
  | float => "Float"
  | string => "String"
  | int => "Int"
  | id => "ID"

def typeText : Scalar → String
  | boolean => "boolean"
  | float => "number"
  | string => "string"
  | int => "number"
  | id => "any"

def ofName? (name : String) : Option Scalar := all.find? (·.name == name)

end Scalar

/-- Whether a type name is that of a built-in scalar. -/
def isScalarName (name : String) : Bool := (Scalar.ofName? name).isSome

/-- The TypeScript name of a GraphQL type. -/
def typeName (name : String) : String :=
  match Scalar.ofName? name with
  | some s => s.typeText
  | none => name

end GraphDecl
