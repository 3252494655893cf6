import GraphDecl.Proofs.Document.Places
import GraphDecl.Proofs.Document.Selections
import GraphDecl.Schema.Rules

/-!
Rules without places. A rule looks at names, values and kinds only: a document breaks the same rules with and
without the places of its arguments and directives, and it may look definitions up in any scope that says the
same of every name.
-/

namespace GraphDecl.Rules

/-! ### Scopes -/

/-- The scopes say the same of directives, and of which types there are and of what kind. -/
structure Scope.Agrees (s s' : Scope) : Prop where
  directive? : ∀ n, s'.directive? n = s.directive? n
  kind : ∀ n, (s'.type? n).map (·.body.kind) = (s.type? n).map (·.body.kind)

theorem Scope.Agrees.refl (s : Scope) : s.Agrees s := ⟨fun _ => rfl, fun _ => rfl⟩

theorem Scope.Agrees.isSome_type? {s s' : Scope} (h : s.Agrees s') (n : String) :
    (s'.type? n).isSome = (s.type? n).isSome := by
  simpa only [Option.isSome_map] using congrArg Option.isSome (h.kind n)

theorem requiredArguments_unplaced (args : List InputValueDefinition) :
    requiredArguments (args.map InputValueDefinition.unplaced) = requiredArguments args := by
  rw [requiredArguments, List.filter_map, List.map_map]
  rfl

theorem DirectiveShape.ofDefinition_unplaced (d : DirectiveDefinition) :
    DirectiveShape.ofDefinition d.unplaced = .ofDefinition d := by
  have hnames : d.unplaced.arguments.map (·.name) = d.arguments.map (·.name) := List.map_map
  rw [DirectiveShape.ofDefinition, DirectiveShape.ofDefinition, hnames]
  exact congrArg _ (requiredArguments_unplaced d.arguments)

theorem Scope.agrees_unplaced (ds : List Definition) :
    (Scope.ofDefinitions ds).Agrees (.ofDefinitions (ds.map Definition.unplaced)) := by
  refine ⟨?_, ?_⟩
  · intro n
    have hfind : ((ds.map Definition.unplaced).filterMap (·.directive?)).reverse.find? (·.name == n) =
        ((ds.filterMap (·.directive?)).reverse.find? (·.name == n)).map DirectiveDefinition.unplaced := by
      rw [filterMap_directive?_unplaced, ← List.map_reverse, List.find?_map]
      rfl
    simp only [directive?, ofDefinitions, hfind]
    cases (ds.filterMap (·.directive?)).reverse.find? (·.name == n) with
    | none => rfl
    | some d => exact congrArg some (DirectiveShape.ofDefinition_unplaced d)
  · intro n
    have hfind : ((ds.map Definition.unplaced).filterMap (·.type?)).reverse.find? (·.name == n) =
        ((ds.filterMap (·.type?)).reverse.find? (·.name == n)).map TypeDefinition.unplaced := by
      rw [filterMap_type?_unplaced, ← List.map_reverse, List.find?_map]
      rfl
    rw [type?, type?, ofDefinitions, hfind, Option.map_map]
    exact congrArg (Option.map · _) (funext fun d => d.body.kind_unplaced)

/-! ### Directives -/

section

variable {s s' : Scope} (h : s.Agrees s')
include h

theorem typeNameFaults_of_agrees (executable : Bool) (name : String) :
    typeNameFaults s' executable name = typeNameFaults s executable name := by
  rw [typeNameFaults, typeNameFaults, h.isSome_type?]

theorem directiveFaults_unplaced (place : DirectiveLocation) (d : Directive) :
    directiveFaults s' place d.unplaced = directiveFaults s place d := by
  have hgiven : d.unplaced.arguments.map (·.name) = d.arguments.map (·.name) := List.map_map
  have hinside : d.unplaced.arguments.flatMap (fun a => valueFaults a.value) =
      d.arguments.flatMap fun a => valueFaults a.value := List.flatMap_map ..
  simp only [directiveFaults, argumentFaults, hgiven, hinside, h.directive?]
  rfl

/-- What is wrong with directives does not depend on where they stand in the text. -/
theorem directivesFaults_unplaced (place : DirectiveLocation) (ds : List Directive) :
    directivesFaults s' place (ds.map Directive.unplaced) = directivesFaults s place ds := by
  simp only [directivesFaults, List.flatMap_map, directiveFaults_unplaced h]

theorem singleDirectives_unplaced (ds : List Directive) :
    singleDirectives s' (ds.map Directive.unplaced) = singleDirectives s ds := by
  simp only [singleDirectives, List.map_map, h.directive?]
  rfl

theorem repeatedDirectives_unplaced (earlier ds : List Directive) :
    repeatedDirectives s' (earlier.map Directive.unplaced) (ds.map Directive.unplaced) =
      repeatedDirectives s earlier ds := by
  simp only [repeatedDirectives, singleDirectives_unplaced h]

theorem repeatedDirectives_nil_unplaced (ds : List Directive) :
    repeatedDirectives s' [] (ds.map Directive.unplaced) = repeatedDirectives s [] ds :=
  repeatedDirectives_unplaced h [] ds

/-! ### Operations and fragments -/

/-- Nor does what is wrong with selections. -/
theorem selectionsFaults_unplaced (xs : List Selection) :
    selectionsFaults s' (Selection.allUnplaced xs) = selectionsFaults s xs := by
  induction xs using Selection.listInduction with
  | nil => rfl
  | field label name args dirs below xs ihbelow ihxs =>
    have hargs : argumentFaults (args.map Argument.unplaced) = argumentFaults args :=
      congrArg (fun names => (duplicates names).map _) List.map_map
    cases below with
    | none =>
      simp only [Selection.allUnplaced, Selection.unplaced, selectionsFaults, selectionFaults,
        repeatedDirectives_nil_unplaced h, directivesFaults_unplaced h, hargs, List.flatMap_map, ihxs]
      rfl
    | some selections =>
      simp only [Selection.allUnplaced, Selection.unplaced, selectionsFaults, selectionFaults,
        repeatedDirectives_nil_unplaced h, directivesFaults_unplaced h, hargs, List.flatMap_map, ihxs,
        ihbelow selections rfl]
      rfl
  | spread fragment dirs xs ih =>
    simp only [Selection.allUnplaced, Selection.unplaced, selectionsFaults, selectionFaults,
      repeatedDirectives_nil_unplaced h, directivesFaults_unplaced h, ih]
  | inline condition dirs selections xs ihbelow ihxs =>
    simp only [Selection.allUnplaced, Selection.unplaced, selectionsFaults, selectionFaults,
      repeatedDirectives_nil_unplaced h, directivesFaults_unplaced h,
      funext (typeNameFaults_of_agrees h true), ihbelow, ihxs]

theorem variableFaults_unplaced (v : VariableDefinition) :
    variableFaults s' v.unplaced = variableFaults s v := by
  simp only [variableFaults, VariableDefinition.unplaced, repeatedDirectives_nil_unplaced h,
    directivesFaults_unplaced h, typeNameFaults_of_agrees h]

theorem operationFaults_unplaced (d : OperationDefinition) :
    operationFaults s' d.unplaced = operationFaults s d := by
  simp only [operationFaults, OperationDefinition.unplaced, repeatedDirectives_nil_unplaced h,
    directivesFaults_unplaced h, List.flatMap_map, variableFaults_unplaced h, selectionsFaults_unplaced h]

theorem fragmentFaults_unplaced (d : FragmentDefinition) :
    fragmentFaults s' d.unplaced = fragmentFaults s d := by
  simp only [fragmentFaults, FragmentDefinition.unplaced, repeatedDirectives_nil_unplaced h,
    directivesFaults_unplaced h, typeNameFaults_of_agrees h, selectionsFaults_unplaced h]

/-! ### Types -/

theorem inputValueFaults_unplaced (place : DirectiveLocation) (d : InputValueDefinition) :
    inputValueFaults s' place d.unplaced = inputValueFaults s place d := by
  simp only [inputValueFaults, InputValueDefinition.unplaced, repeatedDirectives_nil_unplaced h,
    directivesFaults_unplaced h, typeNameFaults_of_agrees h]

theorem fieldFaults_unplaced (d : FieldDefinition) : fieldFaults s' d.unplaced = fieldFaults s d := by
  simp only [fieldFaults, FieldDefinition.unplaced, repeatedDirectives_nil_unplaced h,
    directivesFaults_unplaced h, typeNameFaults_of_agrees h, List.flatMap_map, inputValueFaults_unplaced h]

theorem enumValueFaults_unplaced (d : EnumValueDefinition) :
    enumValueFaults s' d.unplaced = enumValueFaults s d := by
  simp only [enumValueFaults, EnumValueDefinition.unplaced, repeatedDirectives_nil_unplaced h,
    directivesFaults_unplaced h]

theorem bodyFaults_unplaced (place : DirectiveLocation) (dirs : List Directive) (b : TypeBody) :
    bodyFaults s' place (dirs.map Directive.unplaced) b.unplaced = bodyFaults s place dirs b := by
  simp only [bodyFaults, TypeBody.kind_unplaced, directivesFaults_unplaced h]
  cases b with
  | _ => simp only [TypeBody.unplaced, List.flatMap_map, funext (typeNameFaults_of_agrees h false),
      fieldFaults_unplaced h, enumValueFaults_unplaced h, inputValueFaults_unplaced h]

theorem extensionFaults_unplaced (d : TypeExtension) :
    extensionFaults s' d.unplaced = extensionFaults s d := by
  have hkind := h.kind d.name
  simp only [extensionFaults, TypeExtension.unplaced, TypeBody.kind_unplaced]
  cases hs : s.type? d.name with
  | none =>
    rw [hs] at hkind
    rw [Option.map_eq_none_iff.mp hkind]
  | some t =>
    rw [hs] at hkind
    obtain ⟨t', ht', hkinds⟩ := Option.map_eq_some_iff.mp hkind
    simp only [ht', hkinds]

end

/-! ### Definitions that repeat earlier ones -/

def unplacedPart (part : List Directive × TypeBody) : List Directive × TypeBody :=
  (part.1.map Directive.unplaced, part.2.unplaced)

theorem partsOf_unplaced (name : String) (ds : List Definition) :
    partsOf name (ds.map Definition.unplaced) = (partsOf name ds).map unplacedPart := by
  rw [partsOf, partsOf, List.filterMap_map, List.map_filterMap]
  congr 1
  funext d
  cases d with
  | type d =>
    by_cases hname : d.name = name <;>
      simp [Definition.unplaced, TypeDefinition.unplaced, unplacedPart, hname]
  | typeExtension d =>
    by_cases hname : d.name = name <;>
      simp [Definition.unplaced, TypeExtension.unplaced, unplacedPart, hname]
  | _ => rfl

theorem fieldNames_unplaced (b : TypeBody) : fieldNames b.unplaced = fieldNames b := by
  cases b with
  | object interfaces fields => exact List.map_map
  | interface interfaces fields => exact List.map_map
  | inputObject fields => exact List.map_map
  | _ => rfl

theorem enumValueNames_unplaced (b : TypeBody) : enumValueNames b.unplaced = enumValueNames b := by
  cases b with
  | enum values => exact List.map_map
  | _ => rfl

theorem fieldArgumentFaults_unplaced (type : String) (b : TypeBody) :
    fieldArgumentFaults type b.unplaced = fieldArgumentFaults type b := by
  have hargs (f : FieldDefinition) : f.unplaced.arguments.map (·.name) = f.arguments.map (·.name) :=
    List.map_map
  cases b with
  | object interfaces fields => simp only [fieldArgumentFaults, TypeBody.unplaced, List.flatMap_map, hargs]; rfl
  | interface interfaces fields =>
    simp only [fieldArgumentFaults, TypeBody.unplaced, List.flatMap_map, hargs]; rfl
  | _ => rfl

theorem contentFaults_unplaced (name : String) (earlier : List (List Directive × TypeBody)) (b : TypeBody) :
    contentFaults name (earlier.map unplacedPart) b.unplaced = contentFaults name earlier b := by
  simp only [contentFaults, List.flatMap_map, unplacedPart, fieldNames_unplaced, enumValueNames_unplaced,
    fieldArgumentFaults_unplaced]

theorem schemaDirectives_unplaced (d : Definition) :
    schemaDirectives d.unplaced = (schemaDirectives d).map Directive.unplaced := by
  cases d <;> rfl

theorem rootKinds_unplaced (d : Definition) : rootKinds d.unplaced = rootKinds d := by
  cases d <;> rfl

theorem isSchemaDefinition_unplaced (d : Definition) :
    isSchemaDefinition d.unplaced = isSchemaDefinition d := by
  cases d <;> rfl

section

variable {s s' : Scope} (h : s.Agrees s') (earlier : List Definition)
include h

theorem rootFaults_unplaced (d : Definition) :
    rootFaults s' (earlier.map Definition.unplaced) d.unplaced = rootFaults s earlier d := by
  simp only [rootFaults, List.flatMap_map, rootKinds_unplaced, schemaDirectives_unplaced,
    directivesFaults_unplaced h, ← List.map_flatMap, repeatedDirectives_unplaced h]

/-- Nor does anything else that is wrong with a definition. -/
theorem definitionFaults_unplaced (d : Definition) :
    definitionFaults s' (earlier.map Definition.unplaced) d.unplaced = definitionFaults s earlier d := by
  cases d with
  | operation d => exact operationFaults_unplaced h d
  | fragment d => exact fragmentFaults_unplaced h d
  | schema d =>
    have hroots := rootFaults_unplaced h earlier (.schema d)
    rw [Definition.unplaced] at hroots ⊢
    rw [definitionFaults, definitionFaults, hroots]
    simp only [List.any_map, Function.comp_def, isSchemaDefinition_unplaced, SchemaDefinition.unplaced,
      typeNameFaults_of_agrees h]
  | schemaExtension d =>
    have hroots := rootFaults_unplaced h earlier (.schemaExtension d)
    rw [Definition.unplaced] at hroots ⊢
    rw [definitionFaults, definitionFaults, hroots]
    simp only [SchemaExtension.unplaced, typeNameFaults_of_agrees h]
  | type d =>
    simp only [Definition.unplaced, definitionFaults, TypeDefinition.unplaced, filterMap_type?_unplaced,
      List.any_map, Function.comp_def, partsOf_unplaced, contentFaults_unplaced, bodyFaults_unplaced h,
      List.flatMap_map, unplacedPart, ← List.map_flatMap, repeatedDirectives_unplaced h]
  | typeExtension d =>
    have hextension := extensionFaults_unplaced h d
    simp only [TypeExtension.unplaced] at hextension
    simp only [Definition.unplaced, definitionFaults, TypeExtension.unplaced, partsOf_unplaced,
      contentFaults_unplaced, bodyFaults_unplaced h, hextension, List.flatMap_map, unplacedPart,
      ← List.map_flatMap, repeatedDirectives_unplaced h]
  | directive d =>
    have hnames : d.unplaced.arguments.map (·.name) = d.arguments.map (·.name) := List.map_map
    simp only [Definition.unplaced, definitionFaults, hnames]
    simp only [DirectiveDefinition.unplaced, filterMap_directive?_unplaced, List.any_map, Function.comp_def,
      List.flatMap_map, inputValueFaults_unplaced h]

theorem faultsAfter_unplaced (ds : List Definition) :
    faultsAfter s' (earlier.map Definition.unplaced) (ds.map Definition.unplaced) =
      faultsAfter s earlier ds := by
  induction ds generalizing earlier with
  | nil => rfl
  | cons d ds ih =>
    have hnext := ih (earlier ++ [d])
    rw [List.map_append] at hnext
    simp only [List.map_cons, faultsAfter, definitionFaults_unplaced h, ← hnext, List.map_nil]

/-- A definition breaks the same rules in scopes that agree. -/
theorem definitionFaults_of_agrees (d : Definition) :
    definitionFaults s' earlier d = definitionFaults s earlier d := by
  rw [← definitionFaults_unplaced (.refl s'), definitionFaults_unplaced h]

end

end GraphDecl.Rules

namespace GraphDecl

/-- Places make no difference to the rules. -/
theorem schemaFaults_unplaced (ds : List Definition) :
    schemaFaults (ds.map Definition.unplaced) = schemaFaults ds :=
  Rules.faultsAfter_unplaced (Rules.Scope.agrees_unplaced ds) [] ds

end GraphDecl
