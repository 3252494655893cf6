import GraphDecl.Imports
import GraphDecl.Schema.Builtin
import GraphDecl.Schema.Fault

/-!
The rules that definitions have to keep to make up a schema. All faults are found, in the order of one
walk through the document: what is wrong with a node as a whole stands before what is wrong inside it.
-/

namespace GraphDecl.Rules

/-! ### Repetitions -/

/-- The items that occur in `seen` or earlier in the list. -/
def repeats {α : Type} [DecidableEq α] (seen : List α) : List α → List α
  | [] => []
  | x :: xs => if x ∈ seen then x :: repeats seen xs else repeats (x :: seen) xs

/-- The names that occur more than once, each of them once. -/
def duplicates (names : List String) : List String :=
  (firstOccurrences names).filter fun n => 1 < names.count n

/-! ### Definitions by name -/

structure DirectiveShape where
  name : String
  locations : List DirectiveLocation
  repeatable : Bool
  arguments : List String
  required : List (String × TypeRef)

/-- Arguments without a default value whose type excludes `null`. -/
def requiredArguments (args : List InputValueDefinition) : List (String × TypeRef) :=
  (args.filter fun a => a.type.isRequired && a.default.isNone).map fun a => (a.name, a.type)

def DirectiveShape.ofDefinition (d : DirectiveDefinition) : DirectiveShape :=
  ⟨d.name, d.locations, d.repeatable, d.arguments.map (·.name), requiredArguments d.arguments⟩

def builtinDirectives : List DirectiveShape :=
  [ ⟨"include", [.field, .fragmentSpread, .inlineFragment], false, ["if"],
      [("if", .named "Boolean" true)]⟩
  , ⟨"skip", [.field, .fragmentSpread, .inlineFragment], false, ["if"],
      [("if", .named "Boolean" true)]⟩
  , ⟨"deprecated", [.fieldDefinition, .argumentDefinition, .inputFieldDefinition, .enumValue], false,
      ["reason"], []⟩
  , ⟨"specifiedBy", [.scalar], false, ["url"], [("url", .named "String" true)]⟩ ]

structure Scope where
  types : List TypeDefinition
  directives : List DirectiveDefinition

def Scope.ofDefinitions (ds : List Definition) : Scope :=
  ⟨ds.filterMap (·.type?), ds.filterMap (·.directive?)⟩

/-- The last definition of a name counts, and a definition hides a built-in directive. -/
def Scope.directive? (s : Scope) (name : String) : Option DirectiveShape :=
  match s.directives.reverse.find? (·.name == name) with
  | some d => some (.ofDefinition d)
  | none => builtinDirectives.find? (·.name == name)

def Scope.type? (s : Scope) (name : String) : Option TypeDefinition :=
  s.types.reverse.find? (·.name == name)

/-! ### Parts of definitions -/

/-- In an operation or fragment, built-in types have to be defined like others. -/
def typeNameFaults (s : Scope) (executable : Bool) (name : String) : List SchemaFault :=
  if (s.type? name).isSome then []
  else if !executable && Builtin.reserved.contains name then []
  else [.unknownType name]

mutual

def valueFaults : Value → List SchemaFault
  | .list vs => valuesFaults vs
  | .object fields => objectFaults [] fields
  | _ => []

def valuesFaults : List Value → List SchemaFault
  | [] => []
  | v :: vs => valueFaults v ++ valuesFaults vs

def objectFaults (seen : List String) : List (String × Value) → List SchemaFault
  | [] => []
  | (n, v) :: fields =>
    (if n ∈ seen then [.secondInputField n] else []) ++ valueFaults v ++
      objectFaults (n :: seen) fields

end

def argumentFaults (args : List Argument) : List SchemaFault :=
  (duplicates (args.map (·.name))).map .secondArgument

def directiveFaults (s : Scope) (place : DirectiveLocation) (d : Directive) : List SchemaFault :=
  let inside := d.arguments.flatMap fun a => valueFaults a.value
  match s.directive? d.name with
  | none => .unknownDirective d.name :: argumentFaults d.arguments ++ inside
  | some shape =>
    let given := d.arguments.map (·.name)
    let missing := (firstOccurrences (shape.required.map (·.1))).filter (!given.contains ·)
    (if shape.locations.contains place then [] else [.misplacedDirective d.name place])
    ++ (given.filter (!shape.arguments.contains ·)).map (.unknownArgument d.name)
    ++ argumentFaults d.arguments ++ inside
    ++ missing.filterMap fun n =>
      (shape.required.reverse.lookup n).map (.missingArgument d.name n)

def directivesFaults (s : Scope) (place : DirectiveLocation) (ds : List Directive) :
    List SchemaFault :=
  ds.flatMap (directiveFaults s place)

/-- The names of the directives that may stand only once at a place. -/
def singleDirectives (s : Scope) (ds : List Directive) : List String :=
  (ds.map (·.name)).filter fun n => (s.directive? n).any (!·.repeatable)

/-- `earlier` are directives at the same place. -/
def repeatedDirectives (s : Scope) (earlier ds : List Directive) : List SchemaFault :=
  (repeats (singleDirectives s earlier) (singleDirectives s ds)).map .repeatedDirective

/-! ### Operations and fragments -/

mutual

def selectionFaults (s : Scope) : Selection → List SchemaFault
  | .field _ _ args dirs below =>
    repeatedDirectives s [] dirs ++ argumentFaults args
    ++ args.flatMap (fun a => valueFaults a.value) ++ directivesFaults s .field dirs
    ++ match below with
      | some sels => selectionsFaults s sels
      | none => []
  | .spread _ dirs => repeatedDirectives s [] dirs ++ directivesFaults s .fragmentSpread dirs
  | .inline condition dirs sels =>
    repeatedDirectives s [] dirs ++ condition.toList.flatMap (typeNameFaults s true)
    ++ directivesFaults s .inlineFragment dirs ++ selectionsFaults s sels

def selectionsFaults (s : Scope) : List Selection → List SchemaFault
  | [] => []
  | x :: xs => selectionFaults s x ++ selectionsFaults s xs

end

def defaultFaults (v : Option Value) : List SchemaFault := v.toList.flatMap valueFaults

def variableFaults (s : Scope) (v : VariableDefinition) : List SchemaFault :=
  repeatedDirectives s [] v.directives ++ typeNameFaults s true v.type.name ++ defaultFaults v.default
  ++ directivesFaults s .variableDefinition v.directives

def operationPlace : OperationKind → DirectiveLocation
  | .query => .query
  | .mutation => .mutation
  | .subscription => .subscription

def operationFaults (s : Scope) (d : OperationDefinition) : List SchemaFault :=
  repeatedDirectives s [] d.directives ++ d.variableDefinitions.flatMap (variableFaults s)
  ++ directivesFaults s (operationPlace d.kind) d.directives ++ selectionsFaults s d.selections

def fragmentFaults (s : Scope) (d : FragmentDefinition) : List SchemaFault :=
  repeatedDirectives s [] d.directives ++ typeNameFaults s true d.condition
  ++ directivesFaults s .fragmentDefinition d.directives ++ selectionsFaults s d.selections

/-! ### Schema definitions -/

def inputValueFaults (s : Scope) (place : DirectiveLocation) (d : InputValueDefinition) :
    List SchemaFault :=
  repeatedDirectives s [] d.directives ++ typeNameFaults s false d.type.name ++ defaultFaults d.default
  ++ directivesFaults s place d.directives

def fieldFaults (s : Scope) (d : FieldDefinition) : List SchemaFault :=
  repeatedDirectives s [] d.directives ++ d.arguments.flatMap (inputValueFaults s .argumentDefinition)
  ++ typeNameFaults s false d.type.name ++ directivesFaults s .fieldDefinition d.directives

def enumValueFaults (s : Scope) (d : EnumValueDefinition) : List SchemaFault :=
  repeatedDirectives s [] d.directives ++ directivesFaults s .enumValue d.directives

def typePlace : TypeKind → DirectiveLocation
  | .scalar => .scalar
  | .object => .object
  | .interface => .interface
  | .union => .union
  | .enum => .enum
  | .inputObject => .inputObject

/-- What is wrong inside a type. The fields of an input type take directives for input fields where
the type is defined, and those for arguments where it is extended. -/
def bodyFaults (s : Scope) (inputPlace : DirectiveLocation) (dirs : List Directive)
    (body : TypeBody) : List SchemaFault :=
  let named := List.flatMap (typeNameFaults s false)
  let own := directivesFaults s (typePlace body.kind) dirs
  match body with
  | .scalar => own
  | .object interfaces fields => named interfaces ++ own ++ fields.flatMap (fieldFaults s)
  | .interface interfaces fields => named interfaces ++ own ++ fields.flatMap (fieldFaults s)
  | .union members => own ++ named members
  | .enum values => own ++ values.flatMap (enumValueFaults s)
  | .inputObject fields => own ++ fields.flatMap (inputValueFaults s inputPlace)

def fieldNames : TypeBody → List String
  | .object _ fields | .interface _ fields => fields.map (·.name)
  | .inputObject fields => fields.map (·.name)
  | _ => []

def enumValueNames : TypeBody → List String
  | .enum values => values.map (·.name)
  | _ => []

def fieldArgumentFaults (type : String) : TypeBody → List SchemaFault
  | .object _ fields | .interface _ fields => fields.flatMap fun f =>
    (duplicates (f.arguments.map (·.name))).map
      (.secondArgumentDefinition (type ++ "." ++ f.name))
  | _ => []

/-- The parts of a type and of its extensions, by name, as far as they are in `ds`. -/
def partsOf (name : String) (ds : List Definition) : List (List Directive × TypeBody) :=
  ds.filterMap fun
    | .type d => if d.name == name then some (d.directives, d.body) else none
    | .typeExtension d => if d.name == name then some (d.directives, d.body) else none
    | _ => none

/-- What a part of a type repeats of itself or of `earlier` parts. -/
def contentFaults (name : String) (earlier : List (List Directive × TypeBody)) (body : TypeBody) :
    List SchemaFault :=
  (repeats (earlier.flatMap (enumValueNames ·.2)) (enumValueNames body)).map (.secondEnumValue name)
  ++ (repeats (earlier.flatMap (fieldNames ·.2)) (fieldNames body)).map (.secondField name)
  ++ fieldArgumentFaults name body

def schemaDirectives : Definition → List Directive
  | .schema d => d.directives
  | .schemaExtension d => d.directives
  | _ => []

def rootKinds : Definition → List OperationKind
  | .schema d => d.roots.map (·.operation)
  | .schemaExtension d => d.roots.map (·.operation)
  | _ => []

def rootFaults (s : Scope) (earlier : List Definition) (d : Definition) : List SchemaFault :=
  (repeats (earlier.flatMap rootKinds) (rootKinds d)).map .secondRoot
  ++ repeatedDirectives s (earlier.flatMap schemaDirectives) (schemaDirectives d)
  ++ directivesFaults s .schema (schemaDirectives d)

def isSchemaDefinition : Definition → Bool
  | .schema _ => true
  | _ => false

def extensionFaults (s : Scope) (d : TypeExtension) : List SchemaFault :=
  match s.type? d.name with
  | none => [.extendsUndefined d.name]
  | some t => if t.body.kind = d.body.kind then [] else [.extendsOtherKind d.body.kind d.name]

/-- The faults of a definition that follows `earlier` ones. -/
def definitionFaults (s : Scope) (earlier : List Definition) : Definition → List SchemaFault
  | .operation d => operationFaults s d
  | .fragment d => fragmentFaults s d
  | .schema d =>
    (if earlier.any isSchemaDefinition then [.secondSchema] else [])
    ++ rootFaults s earlier (.schema d) ++ d.roots.flatMap (typeNameFaults s false ·.type)
  | .schemaExtension d =>
    rootFaults s earlier (.schemaExtension d) ++ d.roots.flatMap (typeNameFaults s false ·.type)
  | .type d =>
    let parts := partsOf d.name earlier
    (if (earlier.filterMap (·.type?)).any (·.name == d.name) then [.secondType d.name] else [])
    ++ contentFaults d.name parts d.body
    ++ repeatedDirectives s (parts.flatMap (·.1)) d.directives
    ++ bodyFaults s .inputFieldDefinition d.directives d.body
  | .typeExtension d =>
    let parts := partsOf d.name earlier
    contentFaults d.name parts d.body
    ++ repeatedDirectives s (parts.flatMap (·.1)) d.directives
    ++ extensionFaults s d ++ bodyFaults s .argumentDefinition d.directives d.body
  | .directive d =>
    (duplicates (d.arguments.map (·.name))).map (.secondArgumentDefinition ("@" ++ d.name))
    ++ (if (earlier.filterMap (·.directive?)).any (·.name == d.name) then [.secondDirective d.name]
        else [])
    ++ d.arguments.flatMap (inputValueFaults s .argumentDefinition)

def faultsAfter (s : Scope) (earlier : List Definition) : List Definition → List SchemaFault
  | [] => []
  | d :: ds => definitionFaults s earlier d ++ faultsAfter s (earlier ++ [d]) ds

end Rules

def schemaFaults (ds : List Definition) : List SchemaFault :=
  Rules.faultsAfter (.ofDefinitions ds) [] ds

end GraphDecl
