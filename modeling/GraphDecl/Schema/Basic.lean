import GraphDecl.Document.Definition
import GraphDecl.Schema.FieldType

/-!
Schemas: named types, the fields they hold, and the types at which operations start.
-/

namespace GraphDecl

structure InputField where
  description : Option String
  name : String
  type : FieldType
  deriving DecidableEq, Repr

structure Field where
  description : Option String
  name : String
  arguments : List InputField
  type : FieldType
  deriving DecidableEq, Repr

structure EnumValue where
  description : Option String
  name : String
  deriving DecidableEq, Repr

/-- A field of an object or interface, or of an input type. -/
inductive AnyField
  | output (field : Field)
  | input (field : InputField)
  deriving DecidableEq, Repr

def AnyField.type : AnyField → FieldType
  | output f => f.type
  | input f => f.type

inductive TypeContent
  | scalar
  | object (fields : List Field)
  | interface (fields : List Field)
  | union (members : List String)
  | enum (values : List EnumValue)
  | inputObject (fields : List InputField)
  deriving DecidableEq, Repr

namespace TypeContent

def kind : TypeContent → TypeKind
  | scalar => .scalar
  | object _ => .object
  | interface _ => .interface
  | union _ => .union
  | enum _ => .enum
  | inputObject _ => .inputObject

def outputFields : TypeContent → List Field
  | object fields | interface fields => fields
  | _ => []

/-- The types of the fields and arguments in order, those of a field before its arguments'. -/
def fieldTypes : TypeContent → List FieldType
  | object fields | interface fields => fields.flatMap fun f => f.type :: f.arguments.map (·.type)
  | inputObject fields => fields.map (·.type)
  | _ => []

/-- The field of this name of an object, interface or input type. -/
def field? (content : TypeContent) (name : String) : Option AnyField :=
  match content with
  | object fields | interface fields => (fields.find? (·.name == name)).map .output
  | inputObject fields => (fields.find? (·.name == name)).map .input
  | _ => none

/-- Whether a selection can go on below a field of this type. -/
def isComposite : TypeContent → Bool
  | object _ | interface _ => true
  | _ => false

end TypeContent

structure NamedType where
  description : Option String
  name : String
  content : TypeContent
  deriving DecidableEq, Repr

/-- `types` are the declared types in the order of their definitions; `builtin` are the types that
need no definition. -/
structure Schema where
  types : List NamedType
  builtin : List NamedType
  query : Option String
  mutation : Option String
  subscription : Option String
  deriving Repr

namespace Schema

def find? (s : Schema) (name : String) : Option NamedType :=
  (s.types ++ s.builtin).find? (·.name == name)

def root? (s : Schema) : OperationKind → Option String
  | .query => s.query
  | .mutation => s.mutation
  | .subscription => s.subscription

/-- The type that a reference stands for, if the schema has the type it names. -/
def typeOf? (s : Schema) (t : TypeRef) : Option FieldType :=
  (s.find? t.name).map fun _ => t.toFieldType

end Schema

end GraphDecl
