import GraphDecl.Declaration
import GraphDecl.Schema.Path

/-!
Results of operations: a selection is laid over the schema and gives a tree of result fields. Leaves
have the type of their field; a field with selections below has an object type made for it.
-/

namespace GraphDecl

/-- What a document may hold and no declaration is made for. -/
inductive Construct
  | fragmentSpread | inlineFragment | anonymousOperation | fragmentDefinition
  | schemaDefinition | schemaExtension | directiveDefinition
  | typeDefinition (kind : TypeKind)
  | typeExtension (kind : TypeKind)
  deriving DecidableEq, Repr

namespace Construct

private def kindName : TypeKind → String
  | .scalar => "ScalarType"
  | .object => "ObjectType"
  | .interface => "InterfaceType"
  | .union => "UnionType"
  | .enum => "EnumType"
  | .inputObject => "InputObjectType"

def text : Construct → String
  | fragmentSpread => "fragment spread"
  | inlineFragment => "inline fragment"
  | anonymousOperation => "anonymous operation"
  | fragmentDefinition => "fragment definition"
  | schemaDefinition => "SchemaDefinitionNode"
  | schemaExtension => "SchemaExtensionNode"
  | directiveDefinition => "DirectiveDefinitionNode"
  | typeDefinition k => kindName k ++ "DefinitionNode"
  | typeExtension k => kindName k ++ "ExtensionNode"

end Construct

inductive CompileError
  /-- No field is at the end of this path. -/
  | pathNotFound (path : String)
  | missingRoot (operation : OperationKind)
  | unsupported (construct : Construct) (name : Option String)
  deriving DecidableEq, Repr

def CompileError.message : CompileError → String
  | pathNotFound p => "Unable to find path " ++ p
  | missingRoot k => "Schema does not define a root type for " ++ k.text ++ " operations"
  | unsupported c none => "Unsupported construct: " ++ c.text
  | unsupported c (some n) => "Unsupported construct: " ++ c.text ++ " '" ++ n ++ "'"

/-- A field of a result and all that is below it. -/
inductive ResultField
  | leaf (name : String) (type : TypeExpression)
  /-- `members` point at the fields below; `type` holds the layers around them. -/
  | composite (name : String) (members : List Member) (type : FieldType) (fields : List ResultField)
  deriving Repr

namespace ResultField

def name : ResultField → String
  | leaf n _ => n
  | composite n .. => n

mutual

/-- The declared types that the leaves refer to. -/
def imports : ResultField → List String
  | leaf _ t => t.imports
  | composite _ _ _ fields => Imports.merge (importGroups fields)

def importGroups : List ResultField → List (List String)
  | [] => []
  | f :: fs => f.imports :: importGroups fs

end

end ResultField

/-! ### Selections -/

def resultName (label : Option String) (name : String) : String := label.getD name

/-- The names of the selected fields. Selections have to be fields. -/
def selectedNames : List Selection → Except CompileError (List String)
  | [] => .ok []
  | .field label name .. :: rest => (resultName label name :: ·) <$> selectedNames rest
  | .spread fragment _ :: _ => .error (.unsupported .fragmentSpread (some fragment))
  | .inline condition .. :: _ => .error (.unsupported .inlineFragment condition)

/-- Members that point at the selected fields in a namespace. -/
def flatMembers (space : String) (names : List String) : List Member :=
  names.map fun n => ⟨n, dotted space n, none⟩

def stepPath (path field : String) : String := if path.isEmpty then field else dotted path field

/-- The field that every type answers with its own name. -/
def typenameField : String := "__typename"

def Schema.fieldAt (s : Schema) (root path : String) : Except CompileError AnyField :=
  match s.fieldAt? root path with
  | some field => .ok field
  | none => .error (.pathNotFound path)

mutual

/-- The result field of a selection below `path`, which starts at the type `root`. -/
def projectField (s : Schema) (root path : String) : Selection → Except CompileError ResultField
  | .field label name _ _ below =>
    let result := resultName label name
    if name == typenameField then .ok (.leaf result ⟨"string", []⟩)
    else
      let here := stepPath path name
      match s.fieldAt root here with
      | .error e => .error e
      | .ok field =>
        match below with
        | none => .ok (.leaf result (field.type.expression true))
        | some selections => do
          let names ← selectedNames selections
          let fields ← projectFields s root here selections
          return .composite result (flatMembers result names) field.type fields
  | .spread fragment _ => .error (.unsupported .fragmentSpread (some fragment))
  | .inline condition .. => .error (.unsupported .inlineFragment condition)

def projectFields (s : Schema) (root path : String) :
    List Selection → Except CompileError (List ResultField)
  | [] => .ok []
  | x :: xs => do
    let f ← projectField s root path x
    return f :: (← projectFields s root path xs)

end

def project (s : Schema) (root path : String) (selections : List Selection) :
    Except CompileError (List ResultField) := do
  let _ ← selectedNames selections
  projectFields s root path selections

end GraphDecl
