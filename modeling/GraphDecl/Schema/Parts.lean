import GraphDecl.Schema.Builtin

/-!
What types consist of, as the definitions of a document have it. What extensions add follows what the
definition holds, in the order of the document, wherever the extensions stand.
-/

namespace GraphDecl

namespace TypeBody

def interfaces : TypeBody → List String
  | object names _ | interface names _ => names
  | _ => []

def outputFields : TypeBody → List FieldDefinition
  | object _ fields | interface _ fields => fields
  | _ => []

def inputFields : TypeBody → List InputValueDefinition
  | inputObject fields => fields
  | _ => []

def members : TypeBody → List String
  | union ms => ms
  | _ => []

def values : TypeBody → List EnumValueDefinition
  | enum vs => vs
  | _ => []

end TypeBody

def extensionsOf (name : String) (ds : List Definition) : List TypeBody :=
  ds.filterMap fun
    | .typeExtension d => if d.name == name then some d.body else none
    | _ => none

/-- The definition of a type, and all parts of the type, those of the definition first. -/
structure DeclaredType where
  definition : TypeDefinition
  parts : List TypeBody
  deriving Repr

namespace DeclaredType

def name (t : DeclaredType) : String := t.definition.name

def kind (t : DeclaredType) : TypeKind := t.definition.body.kind

end DeclaredType

/-- The types that a document defines, in order. A definition that has the name of a built-in type does
not count. -/
def declaredParts (ds : List Definition) : List DeclaredType :=
  ((ds.filterMap (·.type?)).filter (!Builtin.reserved.contains ·.name)).map fun d =>
    ⟨d, d.body :: extensionsOf d.name ds⟩

end GraphDecl
