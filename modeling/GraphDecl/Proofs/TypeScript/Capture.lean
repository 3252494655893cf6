import GraphDecl.Proofs.TypeScript.Namespaces

/-!
Which references inside the generated namespaces miss the type that they are to name. Fields, aliases, the
interface `Arguments` and the types of a schema share one chain of scopes, although GraphQL keeps their names
apart: a reference is captured where a field around it has the name of the type, or the type is called
`Arguments`. Every namespace is taken as it is printed; two that have one name at one place come from a result
that is selected twice or from types that are declared under one name.
-/

namespace GraphDecl

open Rendering

/-! ### Types -/

def TypeContent.fieldNames : TypeContent → List String
  | object fields | interface fields => fields.map (·.name)
  | inputObject fields => fields.map (·.name)
  | scalar | union _ | enum _ => []

def TypeContent.argumentTypes (content : TypeContent) : List String :=
  content.outputFields.flatMap (·.arguments.map (·.type.name))

/-- The named type `n` of a field or argument has the name of a field, or it is the type of an argument and
called like the interface that stands around arguments. -/
def TypeContent.Hides (content : TypeContent) (n : String) : Prop :=
  (n ∈ content.fieldTypes.map (·.name) ∧ n ∈ content.fieldNames) ∨
    (n = "Arguments" ∧ n ∈ content.argumentTypes)

theorem map_name_shapes (content : TypeContent) : content.shapes.map (·.name) = content.fieldNames := by
  cases content <;> simp [TypeContent.shapes, TypeContent.fieldNames, FieldShape.ofField,
    FieldShape.ofInputField]

section

variable {scope : List String} {n : String}

theorem mem_captured_type {name : String} {type : FieldType} {description : Option String} :
    n ∈ Decl.captured scope (.type name (type.expression true) description) ↔
      isScalarName n = false ∧ n = type.name ∧ n ∈ scope := by
  simp [Decl.captured, FieldType.imports_expression, Imports.mem_ofUsed, and_comm, and_left_comm]

theorem mem_captured_ofField {f : Field} :
    n ∈ Decl.capturedAmong scope (FieldShape.ofField f).decls ↔ isScalarName n = false ∧
      ((n ∈ (f.type :: f.arguments.map (·.type)).map (·.name) ∧ n ∈ scope) ∨
        (n = "Arguments" ∧ n ∈ f.arguments.map (·.type.name))) := by
  have harguments : n ∈ Decl.captured scope (.space f.name [.record (argumentsInterface f.arguments)]) ↔
      (n ∈ f.arguments.map (·.type.name) ∧ isScalarName n = false) ∧ (n ∈ scope ∨ n = "Arguments") := by
    have hname : (argumentsInterface f.arguments).name = "Arguments" := rfl
    simp [Decl.captured, Decl.capturedAmong, imports_argumentsInterface, Imports.mem_ofUsed, Decl.typeNames,
      hname]
  by_cases h : f.arguments = []
  · have hdecls : (FieldShape.ofField f).decls = [.type f.name (f.type.expression true) f.description] := by
      simp [FieldShape.decls, FieldShape.ofField, argumentsInterface, h]
    rw [hdecls, Decl.capturedAmong, Decl.capturedAmong, List.append_nil, mem_captured_type, h]
    simp
  · have hdecls : (FieldShape.ofField f).decls =
        [.space f.name [.record (argumentsInterface f.arguments)],
          .type f.name (f.type.expression true) f.description] := by
      simp [FieldShape.decls, FieldShape.ofField, argumentsInterface, h]
    rw [hdecls, Decl.capturedAmong, Decl.capturedAmong, Decl.capturedAmong, List.append_nil,
      List.mem_append, harguments, mem_captured_type]
    simp only [List.map_cons, List.mem_cons, List.map_map, Function.comp_def]
    tauto

theorem mem_captured_ofInputField {f : InputField} :
    n ∈ Decl.capturedAmong scope (FieldShape.ofInputField f).decls ↔
      isScalarName n = false ∧ n = f.type.name ∧ n ∈ scope := by
  have hdecls : (FieldShape.ofInputField f).decls =
      [.type f.name (f.type.expression true) f.description] := rfl
  rw [hdecls, Decl.capturedAmong, Decl.capturedAmong, List.append_nil, mem_captured_type]

/-- A name is captured in the namespace of a type if a field or argument hides it. -/
theorem mem_capturedIn_body {t : NamedType} :
    n ∈ Decl.capturedIn t.body ↔ isScalarName n = false ∧ t.content.Hides n := by
  have hfields : n ∈ Decl.capturedIn t.body ↔
      ∃ f ∈ t.content.shapes, n ∈ Decl.capturedAmong t.content.fieldNames f.decls := by
    rw [Decl.capturedIn, typeNames_body, map_name_shapes, NamedType.body]
    induction t.content.shapes with
    | nil => simp [Decl.capturedAmong]
    | cons f fs ih => simp [ih]
  have houtput (fields : List Field) (names : List String) :
      (∃ f ∈ fields.map FieldShape.ofField, n ∈ Decl.capturedAmong names f.decls) ↔
        isScalarName n = false ∧
          ((n ∈ (fields.flatMap fun f => f.type :: f.arguments.map (·.type)).map (·.name) ∧ n ∈ names) ∨
            (n = "Arguments" ∧ n ∈ fields.flatMap (·.arguments.map (·.type.name)))) := by
    simp only [List.mem_map, exists_exists_and_eq_and, mem_captured_ofField, List.map_flatMap, List.mem_flatMap]
    constructor
    · rintro ⟨f, hf, hn, ⟨hused, hscope⟩ | ⟨hname, hused⟩⟩
      · exact ⟨hn, .inl ⟨⟨f, hf, hused⟩, hscope⟩⟩
      · exact ⟨hn, .inr ⟨hname, f, hf, hused⟩⟩
    · rintro ⟨hn, ⟨⟨f, hf, hused⟩, hscope⟩ | ⟨hname, f, hf, hused⟩⟩
      · exact ⟨f, hf, hn, .inl ⟨hused, hscope⟩⟩
      · exact ⟨f, hf, hn, .inr ⟨hname, hused⟩⟩
  rw [hfields, TypeContent.Hides]
  cases t.content with
  | object fields => exact houtput fields _
  | interface fields => exact houtput fields _
  | inputObject fields =>
    simp only [TypeContent.shapes, List.mem_map, exists_exists_and_eq_and, mem_captured_ofInputField,
      TypeContent.fieldTypes, TypeContent.argumentTypes, TypeContent.outputFields, List.flatMap_nil,
      List.not_mem_nil, and_false, or_false]
    constructor
    · rintro ⟨f, hf, hn, rfl, hscope⟩
      exact ⟨hn, ⟨f, hf, rfl⟩, hscope⟩
    · rintro ⟨hn, ⟨f, hf, rfl⟩, hscope⟩
      exact ⟨f, hf, hn, rfl, hscope⟩
  | _ => simp [TypeContent.shapes, TypeContent.fieldTypes, TypeContent.argumentTypes, TypeContent.outputFields]

end

/-! ### Operations -/

namespace Schema

mutual

/-- The named types of the leaves of a selection on a type with the fields `field?`. Each stands with the
names `around` and the response names of all levels that lie around the leaf. -/
def leavesOn (s : Schema) (field? : String → Option FieldType) (around : List String) :
    Selection → List (String × List String)
  | .field _ name _ _ below =>
    if name = typenameField then []
    else match field? name with
      | none => []
      | some type => leavesOf s type around below
  | .spread .. | .inline .. => []

def leavesOf (s : Schema) (type : FieldType) (around : List String) :
    Option (List Selection) → List (String × List String)
  | none => [(type.name, around)]
  | some selections =>
    leavesAmong s (s.outputField? type.name) (around ++ selections.map (·.resultName)) selections

def leavesAmong (s : Schema) (field? : String → Option FieldType) (around : List String) :
    List Selection → List (String × List String)
  | [] => []
  | x :: xs => leavesOn s field? around x ++ leavesAmong s field? around xs

end

/-- The named type `n` of a variable or leaf has the name of a result around it, or is called like the
interface that stands around variables. -/
def Hides (s : Schema) (d : OperationDefinition) (n : String) : Prop :=
  let names := "Arguments" :: d.selections.map (·.resultName)
  (n ∈ d.variableDefinitions.map (·.type.name) ∧ n ∈ names) ∨
    ∃ around, (n, around) ∈ s.leavesAmong (s.rootField? d.kind) names d.selections ∧ n ∈ around

variable {s : Schema} {field? : String → Option FieldType} {scope : List String} {n : String}

theorem mem_captured_results {xs : List Selection} {fields : List ResultField}
    (h : s.resultsOn field? xs = some fields) :
    n ∈ Decl.capturedAmong scope (ResultField.declsOf fields) ↔ isScalarName n = false ∧
      ∃ around, (n, around) ∈ s.leavesAmong field? scope xs ∧ n ∈ around := by
  induction h using resultsInduction generalizing scope with
  | nil field? => simp [ResultField.declsOf, Decl.capturedAmong, leavesAmong]
  | field field? label name args dirs below f xs fs h hxs hresult ihbelow ih =>
    have hfirst : n ∈ Decl.capturedAmong scope f.decls ↔ isScalarName n = false ∧
        ∃ around, (n, around) ∈ s.leavesOn field? scope (.field label name args dirs below) ∧ n ∈ around := by
      cases hresult with
      | typename => simp [ResultField.decls, Decl.capturedAmong, Decl.captured, leavesOn]
      | leaf hne htype =>
        rw [ResultField.decls, Decl.capturedAmong, Decl.capturedAmong, List.append_nil, mem_captured_type,
          leavesOn, if_neg hne, htype]
        simp [leavesOf]
      | composite hne htype hinside =>
        rw [ResultField.decls, Decl.capturedAmong, Decl.capturedAmong, Decl.capturedAmong,
          leavesOn, if_neg hne, htype]
        simpa [Decl.captured, leavesOf, typeNames_declsOf, names_resultsOn hinside] using ihbelow _ rfl hinside
    rw [ResultField.declsOf, Decl.capturedAmong_append, List.mem_append, hfirst, ih, leavesAmong]
    simp only [List.mem_append, or_and_right, exists_or, and_or_left]

end Schema

variable {s : Schema} {order : DisplayOrder} {text : String} {n : String}

/-- A name is captured in the namespace of an operation if a result hides it. -/
theorem mem_capturedIn_operation {name signature : String} {d : OperationDefinition} {op : Operation}
    (hd : d.Named) (h : compileNamed s name signature d = .ok op) :
    n ∈ Decl.capturedIn op.body ↔ isScalarName n = false ∧ s.Hides d n := by
  obtain ⟨-, hresults⟩ := imports_compileNamed hd h
  obtain ⟨harguments, -⟩ := interfaces_compileNamed h
  have hnames : Decl.typeNames op.body = "Arguments" :: d.selections.map (·.resultName) := by
    rw [typeNames_operation, harguments, Schema.names_resultsOn hresults]
    rfl
  have hvariables (scope : List String) : n ∈ Decl.captured scope (.record op.space.arguments) ↔
      isScalarName n = false ∧ n ∈ d.variableDefinitions.map (·.type.name) ∧ n ∈ scope := by
    rw [harguments, Decl.captured, imports_variablesInterface, List.mem_filter, Imports.mem_ofUsed]
    simp [and_comm, and_left_comm]
  rw [Decl.capturedIn, hnames, Operation.body, Decl.capturedAmong, List.mem_append, hvariables,
    Schema.mem_captured_results hresults, ← and_or_left]
  rfl

/-- In the printed namespaces, exactly these references miss the declared type that they are to name: in the
namespace of a type the named types of fields and arguments that some field has the name of, and in that of an
operation the named types of variables and leaves that a result around them has the name of; and those called
`Arguments` beside or inside an interface for arguments. -/
theorem captured_iff {c : Compilation} (h : compile s order text = .ok c) :
    List.Forall₂ (fun t d => d = .ofType t ∧ (t.content.isEntity = true →
      EndWithSpace (declarationLines d) (camelCase t.name) t.body ∧
      ∀ n, n ∈ Decl.capturedIn t.body ↔ isScalarName n = false ∧ t.content.Hides n))
      (s.inOrder order) c.types ∧
    List.Forall₂ (fun d op =>
      EndWithSpace (operationLines op) op.space.name op.body ∧
      ∀ n, n ∈ Decl.capturedIn op.body ↔ isScalarName n = false ∧ s.Hides d n)
      (operationsOf text) c.operations := by
  obtain ⟨htypes, -, hops⟩ := compile_eq_ok h
  constructor
  · rw [htypes, Schema.declarations, List.forall₂_map_right_iff, List.forall₂_same]
    intro t _
    exact ⟨rfl, fun hentity => ⟨endWithSpace_declarationLines hentity, fun n => mem_capturedIn_body⟩⟩
  · refine hops.imp ?_
    rintro d op ⟨hd, name, signature, -, hop⟩
    exact ⟨endWithSpace_operationLines op, fun n => mem_capturedIn_operation hd hop⟩

/-- The alias `date` of the type `Query` is to name the scalar `date`, and is declared as itself or `null`. -/
theorem date_captures_date :
    let sdl := "scalar date type Query \x7b date: date \x7d"
    ∃ s, buildSchema sdl = .ok s ∧ ∃ t ∈ s.types, t.name = "Query" ∧
      Decl.linesOf t.body = ["export type date = date | null;"] ∧ Decl.typeNames t.body = ["date"] ∧
      Decl.capturedIn t.body = ["date"] ∧ ∃ u ∈ s.types, u.name = "date" := by
  intro sdl
  have hrun : (buildSchema sdl).toOption.map (fun s => s.types.map fun t =>
      (t.name, Decl.linesOf t.body, Decl.typeNames t.body, Decl.capturedIn t.body)) =
        some [("date", [], [], []), ("Query", ["export type date = date | null;"], ["date"], ["date"])] := by
    decide +kernel
  obtain ⟨s, hs, htypes⟩ := Option.map_eq_some_iff.mp hrun
  obtain ⟨u, us, hsplit, hu, hrest⟩ := List.map_eq_cons_iff.mp htypes
  obtain ⟨t, ht, hquery⟩ := List.map_eq_singleton_iff.mp hrest
  simp only [Prod.mk.injEq] at hu hquery
  refine ⟨s, toOption_eq_some_iff.mp hs, t, by simp [hsplit, ht], hquery.1, hquery.2.1, hquery.2.2.1,
    hquery.2.2.2, u, by simp [hsplit], hu.1⟩

/-- Below the result `Tag` of a post, the type of its tags is taken for that of the post. -/
theorem captured_on_blog :
    let text := "query Q \x7b Tag: post \x7b title tags \x7d \x7d"
    ∃ c op, compile Schema.blog .asIs text = .ok c ∧ c.operations = [op] ∧
      "Tag" ∈ Decl.capturedIn op.body ∧ "Post" ∉ Decl.capturedIn op.body := by
  intro text
  have hok : ((compile Schema.blog .asIs text).toOption.map (·.imports)) = some ["Tag"] := by
    decide +kernel
  have hleaves : (operationsOf text).map (fun d => (d.variableDefinitions.map (·.type.name),
      Schema.blog.leavesAmong (Schema.blog.rootField? d.kind) ("Arguments" :: d.selections.map (·.resultName))
        d.selections)) = [([], [("String", ["Arguments", "Tag", "title", "tags"]),
          ("Tag", ["Arguments", "Tag", "title", "tags"])])] := by
    decide +kernel
  obtain ⟨c, hc, -⟩ := Option.map_eq_some_iff.mp hok
  rw [toOption_eq_some_iff] at hc
  obtain ⟨d, hd, hleaves⟩ := List.map_eq_singleton_iff.mp hleaves
  obtain ⟨hvariables, hleaves⟩ := Prod.mk.inj hleaves
  have hops := (captured_iff hc).2
  rw [hd] at hops
  obtain ⟨op, ops, ⟨-, hcaptured⟩, hnil, hsplit⟩ := List.forall₂_cons_left_iff.mp hops
  cases hnil
  refine ⟨c, op, hc, hsplit, ?_, ?_⟩
  · rw [hcaptured, Schema.Hides, hleaves]
    exact ⟨by decide, .inr ⟨["Arguments", "Tag", "title", "tags"], by simp, by decide⟩⟩
  · rw [hcaptured, Schema.Hides, hleaves, hvariables]
    simp

end GraphDecl
