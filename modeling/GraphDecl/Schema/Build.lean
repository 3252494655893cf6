import GraphDecl.Document.Parser
import GraphDecl.Schema.Resolution
import GraphDecl.Schema.Rules

/-!
Schemas from documents. Operations and fragments are left out.
-/

namespace GraphDecl

/-! ### Types -/

def InputField.ofDefinition (d : InputValueDefinition) : InputField :=
  ⟨d.description, d.name, d.type.toFieldType⟩

def Field.ofDefinition (d : FieldDefinition) : Field :=
  ⟨d.description, d.name, d.arguments.map .ofDefinition, d.type.toFieldType⟩

def EnumValue.ofDefinition (d : EnumValueDefinition) : EnumValue := ⟨d.description, d.name⟩

/-- The content of a type whose parts are given, all of one kind. -/
def TypeContent.ofParts (kind : TypeKind) (parts : List TypeBody) : TypeContent :=
  match kind with
  | .scalar => .scalar
  | .object => .object ((parts.flatMap (·.outputFields)).map .ofDefinition)
  | .interface => .interface ((parts.flatMap (·.outputFields)).map .ofDefinition)
  | .union => .union (parts.flatMap (·.members))
  | .enum => .enum ((parts.flatMap (·.values)).map .ofDefinition)
  | .inputObject => .inputObject ((parts.flatMap (·.inputFields)).map .ofDefinition)

def NamedType.ofDeclared (t : DeclaredType) : NamedType :=
  ⟨t.definition.description, t.name, .ofParts t.kind t.parts⟩

def declaredTypes (ds : List Definition) : List NamedType :=
  (declaredParts ds).map .ofDeclared

/-- The built-in scalars that a document defines again or refers to. -/
def mentionedTypes (ds : List Definition) : List String :=
  (ds.filterMap (·.type?)).map (·.name)
  ++ (declaredTypes ds).flatMap (fun t => t.content.fieldTypes.map (·.name))
  ++ (ds.filterMap (·.directive?)).flatMap (fun d => d.arguments.map (·.type.name))

/-- Texts and truth values are always there, as schemas describe themselves with them; the other
scalars only where they are mentioned. -/
def builtinTypes (ds : List Definition) : List NamedType :=
  let mentioned := mentionedTypes ds
  let present (s : Scalar) := s == .string || s == .boolean || mentioned.contains s.name
  (Scalar.all.filter present).map Builtin.scalar ++ Builtin.introspection

/-! ### Roots -/

/-- The roots that the schema definition and its extensions name. -/
def namedRoots (ds : List Definition) : List RootDefinition :=
  ds.flatMap fun
    | .schema d => d.roots
    | .schemaExtension d => d.roots
    | _ => []

def defaultRootName : OperationKind → String
  | .query => "Query"
  | .mutation => "Mutation"
  | .subscription => "Subscription"

/-- Without a schema definition, a type with the usual name comes first. -/
def rootName (ds : List Definition) (k : OperationKind) : Option String :=
  let named := ((namedRoots ds).find? (·.operation == k)).map (·.type)
  if ds.any Rules.isSchemaDefinition then named
  else if (declaredTypes ds).any (·.name == defaultRootName k) then some (defaultRootName k)
  else named

/-! ### Schemas -/

def Schema.ofDefinitions (ds : List Definition) : Schema :=
  { types := declaredTypes ds
    builtin := builtinTypes ds
    query := rootName ds .query
    mutation := rootName ds .mutation
    subscription := rootName ds .subscription }

inductive SchemaError
  | syntaxError (error : SyntaxError)
  /-- At least one rule is broken. -/
  | invalid (faults : List SchemaFault)
  /-- The rules are kept, but the definitions do not fit together. -/
  | unresolved (fault : ResolutionFault Location)
  deriving Repr

def faultsMessage (faults : List SchemaFault) : String :=
  Text.joinWith "\n\n" (faults.map (·.message))

def buildSchema (text : String) : Except SchemaError Schema :=
  match parseDocument text with
  | .error e => .error (.syntaxError e)
  | .ok passages =>
    let ds := passages.map (·.definition)
    match schemaFaults ds, resolve ds with
    | [], .ok () => .ok (.ofDefinitions ds)
    | [], .error fault => .error (.unresolved (fault.map (placeOf text)))
    | faults, _ => .error (.invalid faults)

end GraphDecl
