import GraphDecl.Document.Parser
import GraphDecl.Projection
import GraphDecl.Schema.Build

/-!
Declarations for operations: the text of the operation, the interface of its result, and a namespace
with its arguments and the types of all its result fields.
-/

namespace GraphDecl

structure OperationNamespace where
  name : String
  fields : List ResultField
  arguments : Interface
  imports : List String
  deriving Repr

structure Operation where
  name : String
  kind : OperationKind
  /-- The operation as it stands in its document. -/
  signature : String
  selection : Interface
  space : OperationNamespace
  imports : List String
  deriving Repr

def variablesInterface (vars : List VariableDefinition) : Interface :=
  { name := "Arguments"
    members := vars.map fun v => ⟨v.name, (v.type.expression true).text, none⟩
    imports := Imports.merge (vars.map fun v => (v.type.expression true).imports)
    description := none }

def Schema.root (s : Schema) (k : OperationKind) : Except CompileError String :=
  match s.root? k with
  | some t => .ok t
  | none => .error (.missingRoot k)

def compileNamed (s : Schema) (name signature : String) (d : OperationDefinition) :
    Except CompileError Operation := do
  let typeName := operationTypeName name d.kind.text
  let space := operationNamespaceName name d.kind.text
  let root ← s.root d.kind
  let names ← selectedNames d.selections
  let arguments := variablesInterface d.variableDefinitions
  let fields ← project s root "" d.selections
  let imports := Imports.merge (fields.map (·.imports))
  return {
    name := typeName
    kind := d.kind
    signature := signature
    selection := ⟨typeName, flatMembers space names, [], none⟩
    space := ⟨space, fields, arguments, imports⟩
    imports := Imports.merge [arguments.imports, imports] }

/-- What a definition is that is no operation. -/
def Definition.construct : Definition → Construct
  | .operation _ => .anonymousOperation
  | .fragment _ => .fragmentDefinition
  | .schema _ => .schemaDefinition
  | .type d => .typeDefinition d.body.kind
  | .directive _ => .directiveDefinition
  | .schemaExtension _ => .schemaExtension
  | .typeExtension d => .typeExtension d.body.kind

/-- The declarations for a definition, which has to be an operation with a name. -/
def compileDefinition (s : Schema) (signature : String) :
    Definition → Except CompileError Operation
  | .operation d => match d.name with
    | some name => compileNamed s name signature d
    | none => .error (.unsupported .anonymousOperation none)
  | .fragment d => .error (.unsupported .fragmentDefinition (some d.name))
  | d => .error (.unsupported d.construct none)

/-- Definitions are taken in order; the first failure ends it. -/
def compilePassages (s : Schema) (text : String) : List Passage → Except CompileError (List Operation)
  | [] => .ok []
  | p :: ps => do
    let op ← compileDefinition s (slice text p.start p.stop) p.definition
    return op :: (← compilePassages s text ps)

inductive DocumentError
  | syntaxError (error : SyntaxError)
  | compile (error : CompileError)
  deriving Repr

def compileOperations (s : Schema) (text : String) : Except DocumentError (List Operation) :=
  match parseDocument text with
  | .error e => .error (.syntaxError e)
  | .ok passages => (compilePassages s text passages).mapError .compile

structure Compilation where
  types : List Declaration
  operations : List Operation
  imports : List String
  deriving Repr

/-- Compiles a document against a schema; a blank document has no operations. -/
def compile (s : Schema) (order : DisplayOrder) (text : String) :
    Except DocumentError Compilation := do
  let blank ← (isBlankDocument text).mapError .syntaxError
  let operations ← if blank then pure [] else compileOperations s text
  return ⟨s.declarations order, operations, Imports.merge (operations.map (·.imports))⟩

/-- How many declarations of each sort there are. -/
structure Counts where
  scalars : Nat
  enums : Nat
  unions : Nat
  entities : Nat
  deriving DecidableEq, Repr

def Compilation.counts (c : Compilation) : Counts :=
  { scalars := c.types.countP (· matches .scalar ..)
    enums := c.types.countP (· matches .enum ..)
    unions := c.types.countP (· matches .union ..)
    entities := c.types.countP (· matches .entity _) }

end GraphDecl
