import GraphDecl.Document.TypeRef

/-!
The types of fields and arguments in a schema: list and non-null layers around a named type.
-/

namespace GraphDecl

inductive FieldType
  | named (name : String)
  | list (element : FieldType)
  | nonNull (inner : FieldType)
  deriving DecidableEq, Repr

namespace FieldType

def name : FieldType → String
  | named n => n
  | list t => t.name
  | nonNull t => t.name

/-- The type in GraphQL notation, such as `[Post!]!`. -/
def text : FieldType → String
  | named n => n
  | list t => "[" ++ t.text ++ "]"
  | nonNull t => t.text ++ "!"

end FieldType

namespace TypeRef

/-- The layers that a reference stands for. -/
def toFieldType : TypeRef → FieldType
  | named n bang => if bang then .nonNull (.named n) else .named n
  | list t bang => if bang then .nonNull (.list t.toFieldType) else .list t.toFieldType

@[simp] theorem name_toFieldType (t : TypeRef) : t.toFieldType.name = t.name := by
  induction t with
  | named n bang => cases bang <;> rfl
  | list t bang ih => cases bang <;> simpa [toFieldType, FieldType.name, name] using ih

end TypeRef

end GraphDecl
