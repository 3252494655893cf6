import GraphDecl.Operation
import GraphDecl.Proofs.Document.NamedDefinitions
import GraphDecl.Proofs.Projection.Leaves

/-!
What a document compiles to. The operations come from the operation definitions of the document, one by
one, and every list of imports, from a field's to the document's, holds the declared types that are used
there.
-/

namespace GraphDecl

def operationsOf (text : String) : List OperationDefinition :=
  match parseDocument text with
  | .ok passages => passages.filterMap (·.definition.operation?)
  | .error _ => []

/-! ### Blank documents -/

theorem Parser.document_of_eof {ts : Remaining} (h : ts.tokens.headD .eof = .eof) :
    document ts = .error ⟨ts.count, .unexpected .eof⟩ := by
  obtain ⟨tokens, count, hcount⟩ := ts
  cases tokens with
  | nil => rfl
  | cons t rest =>
    cases h
    rfl

theorem operationsOf_blank {text : String} (h : isBlankDocument text = .ok true) :
    operationsOf text = [] := by
  have hhead : (tokens text).headD .eof = .eof := by
    rw [tokens]
    unfold isBlankDocument at h
    split at h
    · cases h
    · next t start stop rest _ hlexemes =>
      rw [hlexemes]
      simpa using h
    · next hlexemes => rw [hlexemes]; rfl
  rw [operationsOf, parseDocument, Parser.document_of_eof hhead]

/-! ### Operations -/

variable {s : Schema} {order : DisplayOrder} {text name signature : String}

def Schema.rootField? (s : Schema) (k : OperationKind) (field : String) : Option FieldType :=
  (s.root? k).bind fun root => s.anyField? root field

/-- A named operation has the results of its selection on the root, and imports what its variables and
results import. -/
theorem compileNamed_eq_ok {d : OperationDefinition} {op : Operation}
    (h : compileNamed s name signature d = .ok op) :
    ∃ root fields, s.root? d.kind = some root ∧ project s root "" d.selections = .ok fields ∧
      op.space.fields = fields ∧
      op.imports = Imports.merge
        [(variablesInterface d.variableDefinitions).imports, Imports.merge (fields.map (·.imports))] := by
  obtain ⟨root, hroot, h⟩ := bind_eq_ok_iff.mp h
  obtain ⟨names, -, h⟩ := bind_eq_ok_iff.mp h
  obtain ⟨fields, hfields, h⟩ := bind_eq_ok_iff.mp h
  cases h
  refine ⟨root, fields, ?_, hfields, rfl, rfl⟩
  unfold Schema.root at hroot
  split at hroot
  · next hr =>
    cases hroot
    exact hr
  · cases hroot

/-- The interfaces of an operation: one for its variables, and one that points into its namespace. -/
theorem interfaces_compileNamed {d : OperationDefinition} {op : Operation}
    (h : compileNamed s name signature d = .ok op) :
    op.space.arguments = variablesInterface d.variableDefinitions ∧
      op.selection.members = flatMembers op.space.name (d.selections.map (·.resultName)) := by
  obtain ⟨root, -, h⟩ := bind_eq_ok_iff.mp h
  obtain ⟨names, hnames, h⟩ := bind_eq_ok_iff.mp h
  obtain ⟨fields, -, h⟩ := bind_eq_ok_iff.mp h
  cases h
  rw [← Schema.names_of_selectedNames hnames]
  exact ⟨rfl, rfl⟩

/-- Only operations with a name are compiled. -/
theorem compileDefinition_eq_ok {d : Definition} {op : Operation}
    (h : compileDefinition s signature d = .ok op) :
    ∃ o name, d = .operation o ∧ o.name = some name ∧ compileNamed s name signature o = .ok op := by
  unfold compileDefinition at h
  split at h
  · split at h
    · next hname => exact ⟨_, _, rfl, hname, h⟩
    · cases h
  · cases h
  · cases h

/-- The definitions of a document that compiles are operations, each compiled on its own. -/
theorem forall₂_of_compilePassages {passages : List Passage} {ops : List Operation}
    (h : compilePassages s text passages = .ok ops) :
    List.Forall₂ (fun d op => ∃ name signature, d.name = some name ∧
      compileNamed s name signature d = .ok op) (passages.filterMap (·.definition.operation?)) ops := by
  induction passages generalizing ops with
  | nil =>
    cases h
    exact .nil
  | cons p ps ih =>
    obtain ⟨op, hop, h⟩ := bind_eq_ok_iff.mp h
    obtain ⟨rest, hrest, h⟩ := bind_eq_ok_iff.mp h
    cases h
    obtain ⟨o, name, hd, hname, ho⟩ := compileDefinition_eq_ok hop
    rw [List.filterMap_cons_some (by rw [hd]; rfl)]
    exact .cons ⟨name, _, hname, ho⟩ (ih hrest)

/-- Every operation of a document that compiles has a name and gives one declaration, in order. -/
theorem forall₂_of_compileOperations {ops : List Operation}
    (h : compileOperations s text = .ok ops) :
    List.Forall₂ (fun d op => d.Named ∧ ∃ name signature, d.name = some name ∧
      compileNamed s name signature d = .ok op)
      (operationsOf text) ops := by
  unfold compileOperations at h
  split at h
  · cases h
  · next passages hparse =>
    have hnamed : ∀ d ∈ passages.filterMap (·.definition.operation?), d.Named := by
      intro d hd
      obtain ⟨p, hp, hd⟩ := List.mem_filterMap.mp hd
      have hpd := named_of_parseDocument hparse p hp
      cases hdef : p.definition with
      | operation o =>
        rw [hdef] at hd hpd
        cases hd
        exact hpd
      | _ => simp [hdef, Definition.operation?] at hd
    rw [operationsOf, hparse, List.forall₂_and_left]
    exact ⟨hnamed, forall₂_of_compilePassages (mapError_eq_ok_iff.mp h)⟩

/-- What one operation compiles to, seen through `f`. -/
theorem exists_operation_of_map {α : Type} {f : Operation → α} {x : α}
    (h : (compileOperations s text).toOption.map (·.map f) = some [x]) :
    ∃ op, compileOperations s text = .ok [op] ∧ f op = x := by
  obtain ⟨ops, hops, h⟩ := Option.map_eq_some_iff.mp h
  obtain ⟨op, rfl, hop⟩ := List.map_eq_singleton_iff.mp h
  exact ⟨op, toOption_eq_some_iff.mp hops, hop⟩

/-- What one operation compiles to on the schema of a text. -/
theorem exists_schema_operation_of_map {sdl : String} {α : Type} {f : Operation → α} {x : α}
    (h : ((buildSchema sdl).toOption.bind fun s =>
      (compileOperations s text).toOption.map (·.map f)) = some [x]) :
    ∃ s op, buildSchema sdl = .ok s ∧ compileOperations s text = .ok [op] ∧ f op = x := by
  obtain ⟨s, hs, h⟩ := Option.bind_eq_some_iff.mp h
  obtain ⟨op, hop, hx⟩ := exists_operation_of_map h
  exact ⟨s, op, toOption_eq_some_iff.mp hs, hop, hx⟩

/-- The records, operations and imports of a compilation. -/
theorem compile_eq_ok {c : Compilation} (h : compile s order text = .ok c) :
    c.types = s.declarations order ∧ c.imports = Imports.merge (c.operations.map (·.imports)) ∧
    List.Forall₂ (fun d op => d.Named ∧ ∃ name signature, d.name = some name ∧
      compileNamed s name signature d = .ok op)
      (operationsOf text) c.operations := by
  obtain ⟨blank, hblank, h⟩ := bind_eq_ok_iff.mp h
  rw [mapError_eq_ok_iff] at hblank
  cases blank with
  | true =>
    cases h
    refine ⟨rfl, rfl, ?_⟩
    rw [operationsOf_blank hblank]
    exact .nil
  | false =>
    obtain ⟨ops, hops, h⟩ := bind_eq_ok_iff.mp h
    cases h
    exact ⟨rfl, rfl, forall₂_of_compileOperations hops⟩

/-! ### Imports -/

/-- The named types that an operation uses: those of its variables, then those of the leaves of its
selection. -/
def Schema.operationTypes (s : Schema) (d : OperationDefinition) : List String :=
  d.variableDefinitions.map (·.type.name) ++ s.leafTypesAmong (s.rootField? d.kind) d.selections

theorem imports_variablesInterface (vars : List VariableDefinition) :
    (variablesInterface vars).imports = Imports.ofUsed (vars.map (·.type.name)) := by
  rw [← Imports.merge_map_singletons, variablesInterface]
  simp only [TypeRef.imports_expression]

theorem imports_argumentsInterface (args : List InputField) :
    (argumentsInterface args).imports = Imports.ofUsed (args.map (·.type.name)) := by
  rw [← Imports.merge_map_singletons, argumentsInterface]
  simp only [FieldType.imports_expression]

/-- An entity imports the declared types among those of its fields, if each of its fields refers to these. -/
theorem imports_ofFields {α : Type} (type : NamedType) (shape : α → FieldShape)
    (used : α → List FieldType)
    (h : ∀ x, Imports.merge (shape x).imports = Imports.ofUsed ((used x).map (·.name))) (fields : List α) :
    (Entity.ofFields type (fields.map shape)).imports =
      Imports.ofUsed ((fields.flatMap used).map (·.name)) := by
  have hflat : (Entity.ofFields type (fields.map shape)).imports =
      Imports.ofUsed (fields.flatMap fun x => (shape x).imports.flatten) := by
    simp only [Entity.ofFields, Imports.merge_eq_ofUsed, List.flatMap_map, List.flatten_eq_flatMap,
      List.flatMap_assoc]
  -- both sides as one merge, of a list for every field
  rw [hflat, ← Imports.merge_map_ofUsed, List.map_flatMap, ← Imports.merge_map_ofUsed]
  simp only [← Imports.merge_eq_ofUsed, h]

theorem merge_imports_ofField (f : Field) :
    Imports.merge (FieldShape.ofField f).imports =
      Imports.ofUsed ((f.type :: f.arguments.map (·.type)).map (·.name)) := by
  have hpair : (FieldShape.ofField f).imports =
      [Imports.ofUsed [f.type.name], Imports.ofUsed (f.arguments.map (·.type.name))] := by
    simp only [FieldShape.imports, FieldShape.ofField, FieldType.imports_expression, Option.map_some,
      Option.getD_some, imports_argumentsInterface]
  rw [hpair, Imports.merge_pair, List.map_cons, List.map_map]
  rfl

theorem merge_imports_ofInputField (f : InputField) :
    Imports.merge (FieldShape.ofInputField f).imports = Imports.ofUsed [f.type.name] := by
  have hpair : (FieldShape.ofInputField f).imports = [Imports.ofUsed [f.type.name], Imports.ofUsed []] := by
    simp only [FieldShape.imports, FieldShape.ofInputField, FieldType.imports_expression,
      Option.map_none, Option.getD_none, Imports.ofUsed_nil]
  rw [hpair, Imports.merge_pair, List.append_nil]

/-- An object, interface or input type imports the declared types of its fields and their arguments. -/
theorem imports_ofType {t : NamedType} {e : Entity} (h : Declaration.ofType t = .entity e) :
    e.imports = Imports.ofUsed (t.content.fieldTypes.map (·.name)) := by
  unfold Declaration.ofType at h
  split at h
  · cases h
  · cases h
  · cases h
  · next fields hcontent =>
    cases h
    rw [imports_ofFields t .ofField _ merge_imports_ofField, hcontent]
    rfl
  · next fields hcontent =>
    cases h
    rw [imports_ofFields t .ofField _ merge_imports_ofField, hcontent]
    rfl
  · next fields hcontent =>
    cases h
    rw [imports_ofFields t .ofInputField (fun f => [f.type]) merge_imports_ofInputField, hcontent,
      ← List.map_eq_flatMap]
    rfl

/-- An operation lists what its variables and the leaves of its results refer to. -/
theorem imports_compileNamed {d : OperationDefinition} {op : Operation} (hd : d.Named)
    (h : compileNamed s name signature d = .ok op) :
    op.imports = Imports.ofUsed (s.operationTypes d) ∧
      s.resultsOn (s.rootField? d.kind) d.selections = some op.space.fields := by
  obtain ⟨root, fields, hroot, hproject, hfields, himports⟩ := compileNamed_eq_ok h
  have hstart : s.rootField? d.kind = s.anyField? root := by
    funext field
    rw [Schema.rootField?, hroot, Option.bind_some]
  have hresults := Schema.resultsOn_of_project hd.selections .start hproject
  rw [← hstart] at hresults
  constructor
  · rw [himports, imports_variablesInterface,
      Schema.merge_imports_of_forall₂ (Schema.imports_of_resultsOn hresults), Imports.merge_pair]
    rfl
  · rw [hfields]
    exact hresults

/-- The list of a compilation is that of all operations of the document, taken together. -/
theorem imports_compile {c : Compilation} (h : compile s order text = .ok c) :
    c.imports = Imports.ofUsed ((operationsOf text).flatMap s.operationTypes) := by
  obtain ⟨-, himports, hops⟩ := compile_eq_ok h
  have hmap := map_eq_map_of_forall₂ (hops.imp fun d op ⟨hd, _, _, _, hop⟩ => (imports_compileNamed hd hop).1)
  rw [himports, hmap, Imports.merge_map_ofUsed]

/-- What holds of the types of all fields and variables holds of what a document imports. -/
theorem forall_mem_imports {P : String → Prop} {c : Compilation} (h : compile s order text = .ok c)
    (hany : ∀ parent name type, s.anyField? parent name = some type → P type.name)
    (hvariables : ∀ d ∈ operationsOf text, ∀ v ∈ d.variableDefinitions, P v.type.name) :
    ∀ n ∈ c.imports, P n := by
  intro n hn
  rw [imports_compile h, Imports.mem_ofUsed] at hn
  obtain ⟨d, hd, hn⟩ := List.mem_flatMap.mp hn.1
  rcases List.mem_append.mp hn with hn | hn
  · obtain ⟨v, hv, rfl⟩ := List.mem_map.mp hn
    exact hvariables d hd v hv
  · refine Schema.forall_mem_leafTypesAmong hany ?_ d.selections n hn
    intro name type hfield
    obtain ⟨root, -, hfield⟩ := Option.bind_eq_some_iff.mp hfield
    exact hany root name type hfield

/-- Every list of imports names the declared types that are used, once each and in the order of their first
use: for a record those of its fields, each before its arguments, for a field of a result those of the
leaves at or below it, for an operation those of its variables and then of all leaves, and for the document
those of its operations. -/
theorem compile_lists_imports {c : Compilation} (h : compile s order text = .ok c) :
    List.Forall₂ (fun t d => d = .ofType t ∧ ∀ e, d = .entity e →
      ListsUsed (t.content.fieldTypes.map (·.name)) e.imports) (s.inOrder order) c.types ∧
    List.Forall₂ (fun d op =>
      (∃ name signature, compileNamed s name signature d = .ok op) ∧
      ListsUsed (s.operationTypes d) op.imports ∧
      ∀ pos level, ResultField.levelAt? op.space.fields pos = some level →
        ∃ field? xs, s.selectedAt? (s.rootField? d.kind) d.selections pos = some (field?, xs) ∧
          List.Forall₂ (fun x f => ListsUsed (s.leafTypesOn field? x) f.imports) xs level)
      (operationsOf text) c.operations ∧
    ListsUsed ((operationsOf text).flatMap s.operationTypes) c.imports := by
  obtain ⟨htypes, -, hops⟩ := compile_eq_ok h
  refine ⟨?_, ?_, ?_⟩
  · rw [htypes, Schema.declarations, List.forall₂_map_right_iff, List.forall₂_same]
    intro t _
    refine ⟨rfl, ?_⟩
    intro e he
    rw [imports_ofType he]
    exact listsUsed_ofUsed _
  · refine hops.imp ?_
    rintro d op ⟨hd, name, signature, -, hop⟩
    obtain ⟨hlist, hresults⟩ := imports_compileNamed hd hop
    refine ⟨⟨name, signature, hop⟩, ?_, fun pos level hlevel => Schema.listsUsed_levelAt? hresults hlevel⟩
    rw [hlist]
    exact listsUsed_ofUsed _
  · rw [imports_compile h]
    exact listsUsed_ofUsed _

theorem compile_lists_imports_of_blog :
    let text := "query Posts($tag: Tag) \x7b last: post post \x7b by: authors \x7b posts \x7b tags \x7d name \x7d __typename \x7d \x7d"
    ∃ c, compile Schema.blog .byKind text = .ok c ∧ c.imports = ["Tag", "Post"] ∧
      (operationsOf text).flatMap Schema.blog.operationTypes = ["Tag", "Post", "Tag", "String"] ∧
      ListsUsed ["Tag", "Post", "Tag", "String"] c.imports := by
  intro text
  have hok : ((compile Schema.blog .byKind text).toOption.map (·.imports)) = some ["Tag", "Post"] := by
    decide +kernel
  have htypes : (operationsOf text).flatMap Schema.blog.operationTypes =
      ["Tag", "Post", "Tag", "String"] := by
    decide +kernel
  cases hc : compile Schema.blog .byKind text with
  | error e =>
    rw [hc] at hok
    cases hok
  | ok c =>
    rw [hc] at hok
    refine ⟨c, rfl, Option.some.inj hok, htypes, ?_⟩
    rw [← htypes]
    exact (compile_lists_imports hc).2.2

end GraphDecl
