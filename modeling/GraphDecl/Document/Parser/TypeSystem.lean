import GraphDecl.Document.Parser.Value

/-!
Reading the definitions of a schema, and extensions of them.
-/

namespace GraphDecl.Parser

/-! ### Schema definitions -/

def inputValueDefinition : Parser InputValueDefinition := do
  let about ← description
  let n ← expectName
  expect .colon
  let t ← typeRef
  let d ← defaultValue
  return ⟨about, n, t, d, ← constantDirectives⟩

def argumentDefinitions : Parser (List InputValueDefinition) :=
  optionalBetween .parenL .parenR inputValueDefinition

def fieldDefinition : Parser FieldDefinition := do
  let about ← description
  let n ← expectName
  let args ← argumentDefinitions
  expect .colon
  let t ← typeRef
  return ⟨about, n, args, t, ← constantDirectives⟩

def fieldDefinitions : Parser (List FieldDefinition) :=
  optionalBetween .braceL .braceR fieldDefinition

def enumValueDefinition : Parser EnumValueDefinition := do
  let about ← description
  let t ← peek
  if t.value? ∈ [some "true", some "false", some "null"] then fail (.reservedEnumValue t)
  else
    let n ← expectName
    return ⟨about, n, ← constantDirectives⟩

def interfaceNames : Parser (List String) := do
  if ← skipKeyword "implements" then separatedBy .amp expectName else return []

def unionMembers : Parser (List String) := do
  if ← skip .equals then separatedBy .pipe expectName else return []

def rootDefinition : Parser RootDefinition := do
  let k ← operationKind
  expect .colon
  return ⟨k, ← expectName⟩

/-- The words that open a type definition. -/
def typeKeyword : TypeKind → String
  | .scalar => "scalar"
  | .object => "type"
  | .interface => "interface"
  | .union => "union"
  | .enum => "enum"
  | .inputObject => "input"

def typeKind? (word : String) : Option TypeKind :=
  [TypeKind.scalar, .object, .interface, .union, .enum, .inputObject].find? (typeKeyword · == word)

/-- Name, directives and content of a type, from its keyword on. Interfaces stand before the
directives, everything else after them. -/
def typeParts (kind : TypeKind) : Parser (String × List Directive × TypeBody) := do
  expectKeyword (typeKeyword kind)
  let n ← expectName
  match kind with
  | .scalar => return (n, ← constantDirectives, .scalar)
  | .object =>
    let interfaces ← interfaceNames
    let dirs ← constantDirectives
    return (n, dirs, .object interfaces (← fieldDefinitions))
  | .interface =>
    let interfaces ← interfaceNames
    let dirs ← constantDirectives
    return (n, dirs, .interface interfaces (← fieldDefinitions))
  | .union =>
    let dirs ← constantDirectives
    return (n, dirs, .union (← unionMembers))
  | .enum =>
    let dirs ← constantDirectives
    return (n, dirs, .enum (← optionalBetween .braceL .braceR enumValueDefinition))
  | .inputObject =>
    let dirs ← constantDirectives
    return (n, dirs, .inputObject (← optionalBetween .braceL .braceR inputValueDefinition))

def typeDefinition (kind : TypeKind) : Parser TypeDefinition := do
  let about ← description
  let (n, dirs, body) ← typeParts kind
  return ⟨about, n, dirs, body⟩

def schemaDefinition : Parser SchemaDefinition := do
  let about ← description
  expectKeyword "schema"
  let dirs ← constantDirectives
  return ⟨about, dirs, ← manyBetween .braceL .braceR rootDefinition⟩

def directiveLocation? : String → Option DirectiveLocation
  | "QUERY" => some .query
  | "MUTATION" => some .mutation
  | "SUBSCRIPTION" => some .subscription
  | "FIELD" => some .field
  | "FRAGMENT_DEFINITION" => some .fragmentDefinition
  | "FRAGMENT_SPREAD" => some .fragmentSpread
  | "INLINE_FRAGMENT" => some .inlineFragment
  | "VARIABLE_DEFINITION" => some .variableDefinition
  | "DIRECTIVE_DEFINITION" => some .directiveDefinition
  | "SCHEMA" => some .schema
  | "SCALAR" => some .scalar
  | "OBJECT" => some .object
  | "FIELD_DEFINITION" => some .fieldDefinition
  | "ARGUMENT_DEFINITION" => some .argumentDefinition
  | "INTERFACE" => some .interface
  | "UNION" => some .union
  | "ENUM" => some .enum
  | "ENUM_VALUE" => some .enumValue
  | "INPUT_OBJECT" => some .inputObject
  | "INPUT_FIELD_DEFINITION" => some .inputFieldDefinition
  | _ => none

def directiveLocation : Parser DirectiveLocation := do
  let place ← remaining
  let n ← expectName
  match directiveLocation? n with
  | some l => return l
  | none => failAt place (.unexpected (.name n))

def directiveDefinition : Parser DirectiveDefinition := do
  let about ← description
  expectKeyword "directive"
  expect .atSign
  let n ← expectName
  let args ← argumentDefinitions
  let repeatable ← skipKeyword "repeatable"
  expectKeyword "on"
  return ⟨about, n, args, repeatable, ← separatedBy .pipe directiveLocation⟩

/-! ### Extensions -/

def addsContent : TypeBody → Bool
  | .scalar => false
  | .object interfaces fields => !interfaces.isEmpty || !fields.isEmpty
  | .interface interfaces fields => !interfaces.isEmpty || !fields.isEmpty
  | .union members => !members.isEmpty
  | .enum values => !values.isEmpty
  | .inputObject fields => !fields.isEmpty

/-- An extension has to add something. -/
def typeExtension (kind : TypeKind) : Parser TypeExtension := do
  expectKeyword "extend"
  let (n, dirs, body) ← typeParts kind
  if dirs.isEmpty && !addsContent body then unexpected else return ⟨n, dirs, body⟩

def schemaExtension : Parser SchemaExtension := do
  expectKeyword "extend"
  expectKeyword "schema"
  let dirs ← constantDirectives
  let roots ← optionalBetween .braceL .braceR rootDefinition
  if dirs.isEmpty && roots.isEmpty then unexpected else return ⟨dirs, roots⟩

/-- What is extended shows at the second token. -/
def extension : Parser Definition := do
  let place ← remaining
  let t ← peekSecond
  let stop : Parser Definition := failAt (place - 1) (.unexpected t)
  match t with
  | .name "schema" => .schemaExtension <$> schemaExtension
  | .name n => match typeKind? n with
    | some k => .typeExtension <$> typeExtension k
    | none => stop
  | _ => stop

end GraphDecl.Parser
