import GraphDecl.Naming
import GraphDecl.Schema.Basic
import GraphDecl.TypeExpression

/-!
The declarations that stand for the types of a schema. An object, interface or input type becomes an
interface whose members point into a namespace, and the namespace with the types of its fields.
-/

namespace GraphDecl

structure Member where
  name : String
  type : String
  description : Option String
  deriving DecidableEq, Repr

/-- `imports` are the declared types that the members refer to. -/
structure Interface where
  name : String
  members : List Member
  imports : List String
  description : Option String
  deriving DecidableEq, Repr

/-- The type of a field, and an interface for its arguments; the fields of input types take none. -/
structure FieldAlias where
  name : String
  type : String
  description : Option String
  arguments : Option Interface
  deriving DecidableEq, Repr

structure Namespace where
  name : String
  fields : List FieldAlias
  description : Option String
  deriving DecidableEq, Repr

structure Entity where
  flat : Interface
  space : Namespace
  imports : List String
  deriving DecidableEq, Repr

inductive Declaration
  | scalar (name : String) (description : Option String)
  | enum (name : String) (values : List EnumValue) (description : Option String)
  | union (name : String) (types : List String) (description : Option String)
  | entity (entity : Entity)
  deriving DecidableEq, Repr

namespace Declaration

def name : Declaration → String
  | scalar n _ => n
  | enum n _ _ => n
  | union n _ _ => n
  | entity e => e.space.name

def description : Declaration → Option String
  | scalar _ d => d
  | enum _ _ d => d
  | union _ _ d => d
  | entity e => e.space.description

end Declaration

/-! ### From types -/

def argumentsInterface (args : List InputField) : Interface :=
  { name := "Arguments"
    members := args.map fun a => ⟨a.name, (a.type.expression true).text, a.description⟩
    imports := Imports.merge (args.map fun a => (a.type.expression true).imports)
    description := none }

/-- A field of a type with fields: its name, type and description, and its arguments if it can have
any. -/
structure FieldShape where
  name : String
  type : FieldType
  description : Option String
  arguments : Option Interface

def FieldShape.ofField (f : Field) : FieldShape :=
  ⟨f.name, f.type, f.description, some (argumentsInterface f.arguments)⟩

def FieldShape.ofInputField (f : InputField) : FieldShape := ⟨f.name, f.type, f.description, none⟩

/-- What a field refers to: its own type, then the types of its arguments. -/
def FieldShape.imports (f : FieldShape) : List (List String) :=
  [(f.type.expression true).imports, (f.arguments.map (·.imports)).getD []]

/-- The reference from a member to the type of the same name in a namespace. -/
def dotted (space name : String) : String := space ++ "." ++ name

def Entity.ofFields (type : NamedType) (fields : List FieldShape) : Entity :=
  let name := camelCase type.name
  { flat :=
      { name
        members := fields.map fun f => ⟨f.name, dotted name f.name, f.description⟩
        imports := []
        description := none }
    space :=
      { name
        fields := fields.map fun f =>
          ⟨f.name, (f.type.expression true).text, f.description, f.arguments⟩
        description := type.description }
    imports := Imports.merge (fields.flatMap (·.imports)) }

def Declaration.ofType (t : NamedType) : Declaration :=
  match t.content with
  | .scalar => .scalar t.name t.description
  | .enum values => .enum t.name values t.description
  | .union members => .union t.name (members.map typeName) t.description
  | .object fields | .interface fields => .entity (.ofFields t (fields.map .ofField))
  | .inputObject fields => .entity (.ofFields t (fields.map .ofInputField))

/-! ### Order -/

inductive DisplayOrder
  /-- As the definitions stand in the document. -/
  | asIs
  /-- By kind, and as the definitions stand within a kind. -/
  | byKind
  deriving DecidableEq, Repr

def DisplayOrder.ofText? : String → Option DisplayOrder
  | "as-is" => some asIs
  | "default" => some byKind
  | _ => none

def TypeKind.weight : TypeKind → Nat
  | scalar => 0
  | enum => 1
  | interface => 2
  | inputObject => 3
  | union => 4
  | object => 5

/-- A type in the type map of a schema, and where its definition stands if it has one. -/
structure MappedType where
  type : NamedType
  place : Option Nat

/-- Types without a definition go first. -/
def MappedType.sortKey (order : DisplayOrder) (m : MappedType) : Nat × Nat :=
  match m.place, order with
  | none, _ => (0, 0)
  | some place, .asIs => (1, place)
  | some _, .byKind => (1, m.type.content.kind.weight)

def DisplayOrder.le (order : DisplayOrder) (m n : MappedType) : Bool :=
  (m.sortKey order).1 < (n.sortKey order).1
  || (m.sortKey order).1 == (n.sortKey order).1 && (m.sortKey order).2 ≤ (n.sortKey order).2

def insertMapped (order : DisplayOrder) (m : MappedType) : List MappedType → List MappedType
  | [] => [m]
  | n :: ns => if order.le m n then m :: n :: ns else n :: insertMapped order m ns

/-- A stable sort: types with equal keys stay in their order. -/
def sortMapped (order : DisplayOrder) (map : List MappedType) : List MappedType :=
  map.foldr (insertMapped order) []

/-- The types that a schema is looked through for, with places counted in definitions. Where the built-in types stand among
them does not matter. -/
def Schema.typeMap (s : Schema) : List MappedType :=
  s.types.zipIdx.map (fun (t, place) => ⟨t, some place⟩) ++ s.builtin.map fun t => ⟨t, none⟩

/-- The type, if it has a definition. -/
def MappedType.declared? (m : MappedType) : Option NamedType := m.place.map fun _ => m.type

/-- The declared types in the order of their declarations. -/
def Schema.inOrder (s : Schema) (order : DisplayOrder) : List NamedType :=
  (sortMapped order s.typeMap).filterMap (·.declared?)

def Schema.declarations (s : Schema) (order : DisplayOrder) : List Declaration :=
  (s.inOrder order).map .ofType

end GraphDecl
