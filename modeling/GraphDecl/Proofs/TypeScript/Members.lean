import GraphDecl.Proofs.TypeScript.Namespaces

/-!
How often a name is declared. Each selected field gives a declaration of its own, so that a namespace or an
interface declares a name twice where a selection set selects it twice, and where a field at the root has the
name of the interface for the variables.
-/

namespace GraphDecl

open Rendering

/-! ### Selections -/

namespace Selection

mutual

/-- Whether no selection set below the field selects a response name twice. Nothing is looked for below
`__typename`, which has no declarations below it. -/
def onceBelow : Selection → Bool
  | field _ name _ _ below => name == typenameField || onceInside below
  | spread .. | inline .. => true

def onceInside : Option (List Selection) → Bool
  | none => true
  | some selections => decide (selections.map (·.resultName)).Nodup && allOnceBelow selections

def allOnceBelow : List Selection → Bool
  | [] => true
  | x :: xs => x.onceBelow && allOnceBelow xs

end

end Selection

/-- No selection set of the operation selects a response name twice, and no field at the root has the name of
the interface for the variables. -/
structure OperationDefinition.SelectsOnce (d : OperationDefinition) : Prop where
  root : (d.selections.map (·.resultName)).Nodup
  arguments : "Arguments" ∉ d.selections.map (·.resultName)
  below : Selection.allOnceBelow d.selections = true

/-! ### Declarations -/

namespace ResultField

mutual

/-- The flat selections of a field and all fields below it have different entries. -/
def FlatDistinct : ResultField → Prop
  | leaf .. => True
  | composite _ members _ fields => (members.map (·.name)).Nodup ∧ AllFlatDistinct fields

def AllFlatDistinct : List ResultField → Prop
  | [] => True
  | f :: fs => f.FlatDistinct ∧ AllFlatDistinct fs

end

end ResultField

/-- All namespaces of the operation declare different types, and all its flat selections have different
entries. -/
structure Operation.DeclaresOnce (op : Operation) : Prop where
  root : (Decl.typeNames op.body).Nodup
  below : Decl.AllDistinct op.body
  selection : (op.selection.members.map (·.name)).Nodup
  flat : ResultField.AllFlatDistinct op.space.fields

theorem names_flatMembers (space : String) (names : List String) :
    (flatMembers space names).map (·.name) = names := by
  simp [flatMembers, Function.comp_def]

variable {s : Schema} {field? : String → Option FieldType}

/-- Below the first level, namespaces and flat selections repeat a name where a selection set does. -/
theorem distinct_results_iff {xs : List Selection} {fields : List ResultField}
    (h : s.resultsOn field? xs = some fields) :
    (Decl.AllDistinct (ResultField.declsOf fields) ↔ Selection.allOnceBelow xs = true) ∧
      (ResultField.AllFlatDistinct fields ↔ Selection.allOnceBelow xs = true) := by
  induction h using Schema.resultsInduction with
  | nil field? =>
    simp [ResultField.declsOf, Decl.AllDistinct, ResultField.AllFlatDistinct, Selection.allOnceBelow]
  | field field? label name args dirs below f xs fs h hxs hresult ihbelow ih =>
    obtain ⟨hspaces, hflat⟩ := ih
    have hfirst :
        (Decl.AllDistinct f.decls ↔ (Selection.field label name args dirs below).onceBelow = true) ∧
        (f.FlatDistinct ↔ (Selection.field label name args dirs below).onceBelow = true) := by
      cases hresult with
      | typename =>
        simp [ResultField.decls, Decl.AllDistinct, Decl.Distinct, ResultField.FlatDistinct,
          Selection.onceBelow]
      | leaf hne htype =>
        simp [ResultField.decls, Decl.AllDistinct, Decl.Distinct, ResultField.FlatDistinct,
          Selection.onceBelow, Selection.onceInside]
      | composite hne htype hinside =>
        obtain ⟨hspaces, hflat⟩ := ihbelow _ rfl hinside
        simp [ResultField.decls, Decl.AllDistinct, Decl.Distinct, ResultField.FlatDistinct,
          Selection.onceBelow, Selection.onceInside, typeNames_declsOf, names_flatMembers,
          Schema.names_resultsOn hinside, hspaces, hflat, hne]
    rw [ResultField.declsOf, Decl.allDistinct_append, hfirst.1, hspaces, ResultField.AllFlatDistinct,
      hfirst.2, hflat, Selection.allOnceBelow, Bool.and_eq_true]
    exact ⟨Iff.rfl, Iff.rfl⟩

variable {text : String}

/-- An operation declares every type once if no two of its selections have a name in common. -/
theorem declaresOnce_compileNamed {name signature : String} {d : OperationDefinition} {op : Operation}
    (hd : d.Named) (h : compileNamed s name signature d = .ok op) :
    Decl.typeNames op.body = "Arguments" :: d.selections.map (·.resultName) ∧
      (op.DeclaresOnce ↔ d.SelectsOnce) := by
  obtain ⟨-, hresults⟩ := imports_compileNamed hd h
  obtain ⟨harguments, hmembers⟩ := interfaces_compileNamed h
  obtain ⟨hspaces, hflat⟩ := distinct_results_iff hresults
  have hnames : Decl.typeNames op.body = "Arguments" :: d.selections.map (·.resultName) := by
    rw [typeNames_operation, harguments, Schema.names_resultsOn hresults]
    rfl
  have hbelow : Decl.AllDistinct op.body ↔ Selection.allOnceBelow d.selections = true := by
    rw [← hspaces, Operation.body, Decl.AllDistinct, Decl.Distinct, true_and]
  refine ⟨hnames, ?_⟩
  constructor
  · rintro ⟨hroot, hdistinct, -, -⟩
    rw [hnames, List.nodup_cons] at hroot
    exact ⟨hroot.2, hroot.1, hbelow.mp hdistinct⟩
  · rintro ⟨hroot, hfresh, honce⟩
    refine ⟨?_, hbelow.mpr honce, ?_, hflat.mpr honce⟩
    · rw [hnames]
      exact List.nodup_cons.mpr ⟨hfresh, hroot⟩
    · rw [hmembers, names_flatMembers]
      exact hroot

/-- The printed namespace of an operation has one declaration for the variables and one for each field that is
selected at its root. All names in it and below it are declared once, and listed once in the flat selections,
if and only if no selection set selects a response name twice and none at the root is `Arguments`. -/
theorem declaresOnce_iff {ops : List Operation} (h : compileOperations s text = .ok ops) :
    List.Forall₂ (fun d op =>
      EndWithSpace (operationLines op) op.space.name op.body ∧
      Decl.typeNames op.body = "Arguments" :: d.selections.map (·.resultName) ∧
      (op.DeclaresOnce ↔ d.SelectsOnce)) (operationsOf text) ops := by
  refine (forall₂_of_compileOperations h).imp ?_
  rintro d op ⟨hd, name, signature, -, hop⟩
  exact ⟨endWithSpace_operationLines op, declaresOnce_compileNamed hd hop⟩

/-- A field that is selected twice, with different fields below it, is declared twice. -/
theorem selected_twice_declared_twice :
    let sdl := "type Query \x7b a: A \x7d type A \x7b x: Int y: Int \x7d"
    let text := "query Q \x7b a \x7b x \x7d a \x7b y \x7d \x7d"
    ∃ s op, buildSchema sdl = .ok s ∧ compileOperations s text = .ok [op] ∧
      Decl.linesOf op.body = ["export interface Arguments \x7b", "\x7d", "export namespace a \x7b",
        "  export type x = number | null;", "\x7d", "export type a = \x7b x: a.x; \x7d | null;",
        "export namespace a \x7b", "  export type y = number | null;", "\x7d",
        "export type a = \x7b y: a.y; \x7d | null;"] ∧
      Decl.typeNames op.body = ["Arguments", "a", "a"] ∧ op.selection.members.map (·.name) = ["a", "a"] ∧
      ¬ op.DeclaresOnce := by
  intro sdl text
  have hrun : ((buildSchema sdl).toOption.bind fun s => (compileOperations s text).toOption.map
      (·.map fun op => (Decl.linesOf op.body, Decl.typeNames op.body, op.selection.members.map (·.name)))) =
        some [(["export interface Arguments \x7b", "\x7d", "export namespace a \x7b",
          "  export type x = number | null;", "\x7d", "export type a = \x7b x: a.x; \x7d | null;",
          "export namespace a \x7b", "  export type y = number | null;", "\x7d",
          "export type a = \x7b y: a.y; \x7d | null;"], ["Arguments", "a", "a"], ["a", "a"])] := by
    decide +kernel
  obtain ⟨s, op, hs, hops, hop⟩ := exists_schema_operation_of_map hrun
  simp only [Prod.mk.injEq] at hop
  obtain ⟨hlines, hnames, hmembers⟩ := hop
  refine ⟨s, op, hs, hops, hlines, hnames, hmembers, ?_⟩
  intro honce
  have hroot := honce.root
  rw [hnames] at hroot
  exact absurd hroot (by decide)

/-- A field that is selected twice under two names, and a name that two levels share. -/
theorem declaresOnce_on_blog :
    let text := "query Q \x7b a: post \x7b by: authors \x7b name \x7d \x7d by: post \x7b title a: __typename \x7d \x7d"
    ∃ op, compileOperations Schema.blog text = .ok [op] ∧ op.DeclaresOnce := by
  intro text
  have hok : (compileOperations Schema.blog text).toOption.map (·.map (·.name)) = some ["QQuery"] := by
    decide +kernel
  have honce : (operationsOf text).map (fun d => (d.selections.map (·.resultName),
      Selection.allOnceBelow d.selections)) = [(["a", "by"], true)] := by
    decide +kernel
  obtain ⟨op, hops, -⟩ := exists_operation_of_map hok
  obtain ⟨d, hd, honce⟩ := List.map_eq_singleton_iff.mp honce
  obtain ⟨hroot, hbelow⟩ := Prod.mk.inj honce
  have hdeclares := declaresOnce_iff hops
  rw [hd, List.forall₂_cons] at hdeclares
  refine ⟨op, hops, hdeclares.1.2.2.mpr ⟨?_, ?_, hbelow⟩⟩
  · rw [hroot]
    decide
  · rw [hroot]
    decide

end GraphDecl
