import GraphDecl.Schema.Parts
import GraphDecl.Schema.ResolutionFault

/-!
Whether definitions that keep the rules fit together: built-in directives get arguments of their types,
fields and arguments have types that may stand there, and types implement interfaces. Whether a default
value fits its type depends on the default values of that type, so types are resolved as they are
needed. The first fault is the one that counts.
-/

namespace GraphDecl.Resolution

/-- A field of an input type; whether it has a default value that fits. -/
structure InputShape where
  name : String
  type : TypeRef
  defaulted : Bool

/-- Resolving keeps the fields of the input types that it has come by. -/
abbrev Resolving (α : Type) :=
  StateT (List (String × List InputShape)) (Except (ResolutionFault Nat)) α

/-! ### Types by name -/

variable (types : List DeclaredType)

def kind? (name : String) : Option TypeKind :=
  match types.find? (·.name == name) with
  | some t => some t.kind
  | none => (Builtin.types.find? (·.name == name)).map (·.content.kind)

def partsOf (name : String) : List TypeBody :=
  match types.find? (·.name == name) with
  | some t => t.parts
  | none => []

def enumValues (name : String) : List String :=
  match Builtin.types.find? (·.name == name) with
  | some ⟨_, _, .enum vs⟩ => vs.map (·.name)
  | _ => ((partsOf types name).flatMap (·.values)).map (·.name)

def isInput (t : TypeRef) : Bool := kind? types t.name ∈ [some .scalar, some .enum, some .inputObject]

def isOutput (t : TypeRef) : Bool := kind? types t.name ≠ some .inputObject

/-! ### Values -/

/-- How many characters an integer of 32 bits takes at most, with its sign. -/
def longestShortInteger : Nat := 11

/-- Whether a number, which is written without leading zeros, is one of 32 bits with a sign. -/
def isShortInteger (text : String) : Bool :=
  text.length ≤ longestShortInteger &&
    match text.toInt? with
    | some n => -0x80000000 ≤ n && n < 0x80000000
    | none => false

def scalarAccepts : Scalar → Value → Bool
  | .int, .int s => isShortInteger s
  | .float, .int _ | .float, .float _ => true
  | .string, .string .. => true
  | .boolean, .boolean _ => true
  | .id, .string .. | .id, .int _ => true
  | _, _ => false

/-- Whether a type accepts a value as a whole. A declared scalar accepts everything. -/
def leafFits (v : Value) (type : String) : Resolving Bool :=
  match Scalar.ofName? type, kind? types type, v with
  | some s, _, v => return scalarAccepts s v
  | none, some .scalar, _ => return true
  | none, some .enum, .enum n => return (enumValues types type).contains n
  | none, some .enum, _ => return false
  | none, some .inputObject, _ => return false
  | none, _, _ => throw (.defaultType type)

/-- Whether the values of an object fit the fields of a type. A value that is not given has to have a
default, unless it may be null. -/
def shapesFit (given : List (String × (TypeRef → Resolving Bool))) : List InputShape → Resolving Bool
  | [] => return true
  | s :: ss => do
    let fits ← match given.lookup s.name with
      | some check => check s.type
      | none => pure (s.defaulted || !s.type.isRequired)
    if fits then shapesFit given ss else return false

section

variable (resolve : String → Resolving (List InputShape))

mutual

/-- Whether a value fits a type. A value that is no list stands for a list of one item, where a list is
wanted. -/
def fits : Value → TypeRef → Resolving Bool
  | .null, t => return !t.isRequired
  | .list vs, .list item _ => allFit vs item
  | .object fields, t => do
    if kind? types t.name = some .inputObject then shapesFit (checks fields) (← resolve t.name)
    else leafFits types (.object fields) t.name
  | v, t => leafFits types v t.name

def allFit : List Value → TypeRef → Resolving Bool
  | [], _ => return true
  | v :: vs, t => do if ← fits v t then allFit vs t else return false

/-- For every field of an object, whether its value fits a type. -/
def checks : List (String × Value) → List (String × (TypeRef → Resolving Bool))
  | [] => []
  | (n, v) :: fields => (n, fits v) :: checks fields

end

end

/-! ### Built-in directives -/

/-- Checks the text that a built-in directive takes as an argument. If the directive is given more than
once, the first one counts. -/
def checkText (directive argument : String) (type : TypeRef) (given : List Directive) :
    Resolving Unit := do
  if let some d := given.find? (·.name == directive) then
    match d.arguments.find? (·.name == argument) with
    | none => if type.isRequired then throw (.argument (.missing argument type) d.place)
    | some ⟨_, .null, place⟩ =>
      if type.isRequired then throw (.argument (.null argument type) place)
    | some ⟨_, .string .., _⟩ => return
    | some ⟨_, v, place⟩ => throw (.argument (.misfit argument v) place)

def checkDeprecation : List Directive → Resolving Unit :=
  checkText "deprecated" "reason" (.named "String" false)

def checkSpecification : List Directive → Resolving Unit :=
  checkText "specifiedBy" "url" (.named "String" true)

/-! ### Definitions -/

/-- A fault inside `action` is one of the fields of a type. -/
def inFieldsOf {α : Type} (type : String) (action : Resolving α) : Resolving α :=
  tryCatch action fun fault => throw (.fields type fault)

/-- An argument, or a field of an input type. `misplaced` is the fault if its type is none for input. -/
def inputShape (resolve : String → Resolving (List InputShape)) (misplaced : ResolutionFault Nat)
    (d : InputValueDefinition) : Resolving InputShape := do
  let defaulted ← match d.default with
    | some v => fits types resolve v d.type
    | none => pure false
  checkDeprecation d.directives
  if isInput types d.type then return ⟨d.name, d.type, defaulted⟩ else throw misplaced

/-- The fields of an input type. Default values lead from one type to another at most `depth` times. -/
def inputShapes : Nat → String → Resolving (List InputShape)
  | 0, _ => throw .endless
  | depth + 1, name => do
    match (← get).lookup name with
    | some shapes => return shapes
    | none =>
      let fields := (partsOf types name).flatMap (·.inputFields)
      let shapes ← inFieldsOf name (fields.mapM (inputShape types (inputShapes depth) .inputFieldType))
      modify ((name, shapes) :: ·)
      return shapes

/-- Unless the default values of some types need one another, no type comes up twice on the way. -/
def resolveInput : String → Resolving (List InputShape) := inputShapes types (types.length + 1)

def resolveArguments (args : List InputValueDefinition) : Resolving Unit :=
  args.forM fun d => discard (inputShape types (resolveInput types) .argumentType d)

def resolveField (d : FieldDefinition) : Resolving Unit := do
  resolveArguments types d.arguments
  checkDeprecation d.directives
  unless isOutput types d.type do throw .fieldType

def checkFirst (t : DeclaredType) : Resolving Unit :=
  match t.kind with
  | .scalar => checkSpecification t.definition.directives
  | .enum => (t.parts.flatMap (·.values)).forM fun v => checkDeprecation v.directives
  | _ => return

def resolveType (t : DeclaredType) : Resolving Unit := do
  unless (t.parts.flatMap (·.interfaces)).all (kind? types · = some .interface) do
    throw (.interfaces t.name)
  unless (t.parts.flatMap (·.members)).all (kind? types · = some .object) do
    throw (.members t.name)
  inFieldsOf t.name ((t.parts.flatMap (·.outputFields)).forM (resolveField types))
  if t.kind = .inputObject then discard (resolveInput types t.name)

/-- Resolves the types and the arguments of the given directives. -/
def resolveAll (directives : List DirectiveDefinition) : Resolving Unit := do
  types.forM checkFirst
  directives.forM fun d => resolveArguments types d.arguments
  types.forM (resolveType types)

end Resolution

/-- Whether definitions that keep the rules make up a schema. Places are given as numbers of tokens up to
the end of the document. -/
def resolve (ds : List Definition) : Except (ResolutionFault Nat) Unit :=
  (·.1) <$> (Resolution.resolveAll (declaredParts ds) (ds.filterMap (·.directive?))).run []

end GraphDecl
