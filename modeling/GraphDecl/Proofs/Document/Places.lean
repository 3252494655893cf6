import GraphDecl.Document.Definition

/-!
Definitions without the places of their arguments and directives. Only messages about faults tell places, so
that what a document means is the same without them.
-/

namespace GraphDecl

def Argument.unplaced (a : Argument) : Argument := { a with place := 0 }

def Directive.unplaced (d : Directive) : Directive :=
  { d with arguments := d.arguments.map Argument.unplaced, place := 0 }

namespace Selection

mutual

def unplaced : Selection → Selection
  | .field label name args dirs none =>
    .field label name (args.map Argument.unplaced) (dirs.map Directive.unplaced) none
  | .field label name args dirs (some selections) =>
    .field label name (args.map Argument.unplaced) (dirs.map Directive.unplaced)
      (some (allUnplaced selections))
  | .spread fragment dirs => .spread fragment (dirs.map Directive.unplaced)
  | .inline condition dirs selections =>
    .inline condition (dirs.map Directive.unplaced) (allUnplaced selections)

def allUnplaced : List Selection → List Selection
  | [] => []
  | x :: xs => x.unplaced :: allUnplaced xs

end

theorem allUnplaced_eq_map (xs : List Selection) : allUnplaced xs = xs.map unplaced := by
  induction xs with
  | nil => rfl
  | cons x xs ih => rw [allUnplaced, ih, List.map_cons]

theorem unplaced_field (label : Option String) (name : String) (args : List Argument)
    (dirs : List Directive) (below : Option (List Selection)) :
    (field label name args dirs below).unplaced =
      field label name (args.map Argument.unplaced) (dirs.map Directive.unplaced)
        (below.map allUnplaced) := by
  cases below <;> rw [unplaced] <;> rfl

end Selection

def VariableDefinition.unplaced (v : VariableDefinition) : VariableDefinition :=
  { v with directives := v.directives.map Directive.unplaced }

def OperationDefinition.unplaced (d : OperationDefinition) : OperationDefinition :=
  { d with
    variableDefinitions := d.variableDefinitions.map VariableDefinition.unplaced
    directives := d.directives.map Directive.unplaced
    selections := Selection.allUnplaced d.selections }

def FragmentDefinition.unplaced (d : FragmentDefinition) : FragmentDefinition :=
  { d with
    directives := d.directives.map Directive.unplaced
    selections := Selection.allUnplaced d.selections }

/-! ### Schema definitions -/

def InputValueDefinition.unplaced (d : InputValueDefinition) : InputValueDefinition :=
  { d with directives := d.directives.map Directive.unplaced }

def FieldDefinition.unplaced (d : FieldDefinition) : FieldDefinition :=
  { d with
    arguments := d.arguments.map InputValueDefinition.unplaced
    directives := d.directives.map Directive.unplaced }

def EnumValueDefinition.unplaced (d : EnumValueDefinition) : EnumValueDefinition :=
  { d with directives := d.directives.map Directive.unplaced }

def TypeBody.unplaced : TypeBody → TypeBody
  | .scalar => .scalar
  | .object interfaces fields => .object interfaces (fields.map FieldDefinition.unplaced)
  | .interface interfaces fields => .interface interfaces (fields.map FieldDefinition.unplaced)
  | .union members => .union members
  | .enum values => .enum (values.map EnumValueDefinition.unplaced)
  | .inputObject fields => .inputObject (fields.map InputValueDefinition.unplaced)

@[simp] theorem TypeBody.kind_unplaced (b : TypeBody) : b.unplaced.kind = b.kind := by
  cases b <;> rfl

def TypeDefinition.unplaced (d : TypeDefinition) : TypeDefinition :=
  { d with directives := d.directives.map Directive.unplaced, body := d.body.unplaced }

def TypeExtension.unplaced (d : TypeExtension) : TypeExtension :=
  { d with directives := d.directives.map Directive.unplaced, body := d.body.unplaced }

def SchemaDefinition.unplaced (d : SchemaDefinition) : SchemaDefinition :=
  { d with directives := d.directives.map Directive.unplaced }

def SchemaExtension.unplaced (d : SchemaExtension) : SchemaExtension :=
  { d with directives := d.directives.map Directive.unplaced }

def DirectiveDefinition.unplaced (d : DirectiveDefinition) : DirectiveDefinition :=
  { d with arguments := d.arguments.map InputValueDefinition.unplaced }

/-! ### Documents -/

def Definition.unplaced : Definition → Definition
  | .operation d => .operation d.unplaced
  | .fragment d => .fragment d.unplaced
  | .schema d => .schema d.unplaced
  | .type d => .type d.unplaced
  | .directive d => .directive d.unplaced
  | .schemaExtension d => .schemaExtension d.unplaced
  | .typeExtension d => .typeExtension d.unplaced

/-- The types that are defined are the same without places. -/
theorem filterMap_type?_unplaced (ds : List Definition) :
    (ds.map Definition.unplaced).filterMap (·.type?) = (ds.filterMap (·.type?)).map TypeDefinition.unplaced := by
  rw [List.filterMap_map, List.map_filterMap]
  congr 1
  funext d
  cases d <;> rfl

theorem filterMap_directive?_unplaced (ds : List Definition) :
    (ds.map Definition.unplaced).filterMap (·.directive?) =
      (ds.filterMap (·.directive?)).map DirectiveDefinition.unplaced := by
  rw [List.filterMap_map, List.map_filterMap]
  congr 1
  funext d
  cases d <;> rfl

end GraphDecl
