import GraphDecl.Imports
import GraphDecl.Schema.FieldType

/-!
TypeScript type expressions for GraphQL types. A layer that is not marked non-null may be `null`;
brackets around a list element that is a union keep `[]` from binding to its last member only.
-/

namespace GraphDecl

def orNull (text : String) : String := text ++ " | null"

def arrayOf (text : String) : String :=
  if Text.occurs " | ".toList text.toList then "(" ++ text ++ ")[]" else text ++ "[]"

/-- A type expression and the declared types that it refers to. -/
structure TypeExpression where
  text : String
  imports : List String
  deriving DecidableEq, Repr

namespace TypeExpression

def ofName (name : String) : TypeExpression := ⟨typeName name, Imports.merge [[name]]⟩

def array (e : TypeExpression) : TypeExpression := ⟨arrayOf e.text, e.imports⟩

def orNullIf (nullable : Bool) (e : TypeExpression) : TypeExpression :=
  if nullable then ⟨orNull e.text, e.imports⟩ else e

end TypeExpression

/-- The expression for a type reference, whose outermost layer may be `null` if `nullable` and not
marked otherwise. -/
def TypeRef.expression (nullable : Bool) : TypeRef → TypeExpression
  | .named n bang => (TypeExpression.ofName n).orNullIf (nullable && !bang)
  | .list t bang => (t.expression true).array.orNullIf (nullable && !bang)

def FieldType.expression (nullable : Bool) : FieldType → TypeExpression
  | .named n => (TypeExpression.ofName n).orNullIf nullable
  | .list t => (t.expression true).array.orNullIf nullable
  | .nonNull t => t.expression false

/-- Puts the layers of a type around the expression `text`, which stands for its named type. -/
def FieldType.wrap (nullable : Bool) (text : String) : FieldType → String
  | .named _ => if nullable then orNull text else text
  | .list t =>
    let array := arrayOf (t.wrap true text)
    if nullable then orNull array else array
  | .nonNull t => t.wrap false text

end GraphDecl
