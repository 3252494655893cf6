import GraphDecl.Document.TypeRef

/-!
Documents: operations and fragments to run against a schema, and the definitions and extensions that
make up a schema.
-/

namespace GraphDecl

/-! ### Values, arguments and directives -/

/-- Numbers keep the text they are written with, and strings whether they are written as a block. -/
inductive Value
  | variable (name : String)
  | int (text : String)
  | float (text : String)
  | string (text : String) (block : Bool)
  | boolean (value : Bool)
  | null
  | enum (name : String)
  | list (values : List Value)
  | object (fields : List (String × Value))
  deriving Repr, Inhabited

/-- `place` is the number of tokens from the value to the end of the document. -/
structure Argument where
  name : String
  value : Value
  place : Nat
  deriving Repr

/-- `place` is the number of tokens from the `@` to the end of the document. -/
structure Directive where
  name : String
  arguments : List Argument
  place : Nat
  deriving Repr

/-! ### Operations and fragments -/

inductive OperationKind
  | query | mutation | subscription
  deriving DecidableEq, Repr

namespace OperationKind

def all : List OperationKind := [.query, .mutation, .subscription]

def text : OperationKind → String
  | query => "query"
  | mutation => "mutation"
  | subscription => "subscription"

def ofText? (s : String) : Option OperationKind := all.find? (·.text == s)

end OperationKind

/-- `label` is the name that the result is to have instead of the field's. -/
inductive Selection
  | field (label : Option String) (name : String) (arguments : List Argument)
      (directives : List Directive) (selections : Option (List Selection))
  | spread (fragment : String) (directives : List Directive)
  | inline (condition : Option String) (directives : List Directive) (selections : List Selection)
  deriving Repr, Inhabited

structure VariableDefinition where
  description : Option String
  name : String
  type : TypeRef
  default : Option Value
  directives : List Directive
  deriving Repr

structure OperationDefinition where
  description : Option String
  kind : OperationKind
  name : Option String
  variableDefinitions : List VariableDefinition
  directives : List Directive
  selections : List Selection
  deriving Repr

structure FragmentDefinition where
  description : Option String
  name : String
  condition : String
  directives : List Directive
  selections : List Selection
  deriving Repr

/-! ### Schema definitions -/

/-- An argument of a field or directive, or a field of an input type. -/
structure InputValueDefinition where
  description : Option String
  name : String
  type : TypeRef
  default : Option Value
  directives : List Directive
  deriving Repr

structure FieldDefinition where
  description : Option String
  name : String
  arguments : List InputValueDefinition
  type : TypeRef
  directives : List Directive
  deriving Repr

structure EnumValueDefinition where
  description : Option String
  name : String
  directives : List Directive
  deriving Repr

inductive TypeKind
  | scalar | object | interface | union | enum | inputObject
  deriving DecidableEq, Repr

inductive TypeBody
  | scalar
  | object (interfaces : List String) (fields : List FieldDefinition)
  | interface (interfaces : List String) (fields : List FieldDefinition)
  | union (members : List String)
  | enum (values : List EnumValueDefinition)
  | inputObject (fields : List InputValueDefinition)
  deriving Repr

def TypeBody.kind : TypeBody → TypeKind
  | scalar => .scalar
  | object .. => .object
  | interface .. => .interface
  | union _ => .union
  | enum _ => .enum
  | inputObject _ => .inputObject

structure TypeDefinition where
  description : Option String
  name : String
  directives : List Directive
  body : TypeBody
  deriving Repr

structure TypeExtension where
  name : String
  directives : List Directive
  body : TypeBody
  deriving Repr

/-- The type at which operations of one kind start. -/
structure RootDefinition where
  operation : OperationKind
  type : String
  deriving DecidableEq, Repr

structure SchemaDefinition where
  description : Option String
  directives : List Directive
  roots : List RootDefinition
  deriving Repr

structure SchemaExtension where
  directives : List Directive
  roots : List RootDefinition
  deriving Repr

inductive DirectiveLocation
  | query | mutation | subscription | field | fragmentDefinition | fragmentSpread | inlineFragment
  | variableDefinition | directiveDefinition
  | schema | scalar | object | fieldDefinition | argumentDefinition | interface | union | enum
  | enumValue | inputObject | inputFieldDefinition
  deriving DecidableEq, Repr

structure DirectiveDefinition where
  description : Option String
  name : String
  arguments : List InputValueDefinition
  repeatable : Bool
  locations : List DirectiveLocation
  deriving Repr

/-! ### Documents -/

inductive Definition
  | operation (d : OperationDefinition)
  | fragment (d : FragmentDefinition)
  | schema (d : SchemaDefinition)
  | type (d : TypeDefinition)
  | directive (d : DirectiveDefinition)
  | schemaExtension (d : SchemaExtension)
  | typeExtension (d : TypeExtension)
  deriving Repr

namespace Definition

def operation? : Definition → Option OperationDefinition
  | operation d => some d
  | _ => none

def type? : Definition → Option TypeDefinition
  | type d => some d
  | _ => none

def directive? : Definition → Option DirectiveDefinition
  | directive d => some d
  | _ => none

end Definition

end GraphDecl
