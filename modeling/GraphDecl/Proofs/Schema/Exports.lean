import GraphDecl.Proofs.Compilation
import GraphDecl.Proofs.Schema.References
import GraphDecl.Proofs.Schema.Sorting
import GraphDecl.Proofs.TypeScript.Objects

/-!
Which of the types that are referred to have a declaration of that name. Objects, interfaces and input
types are declared under names in upper camel case, all others under their own, and references take a type
by its own name.
-/

namespace GraphDecl

open TypeScript

/-! ### Names of declarations -/

/-- Whether a type is declared as an interface with a namespace. -/
def TypeContent.isEntity : TypeContent → Bool
  | object _ | interface _ | inputObject _ => true
  | scalar | union _ | enum _ => false

theorem name_ofType (t : NamedType) :
    (Declaration.ofType t).name = if t.content.isEntity then camelCase t.name else t.name := by
  obtain ⟨description, name, content⟩ := t
  cases content <;> rfl

def Schema.Declares (s : Schema) (order : DisplayOrder) (n : String) : Prop :=
  ∃ d ∈ s.declarations order, d.name = n

/-- What a schema declares: entities in camel case, all others under their own names. -/
theorem declares_iff {s : Schema} {order : DisplayOrder} {n : String} :
    s.Declares order n ↔
      ∃ t ∈ s.types, (if t.content.isEntity then camelCase t.name else t.name) = n := by
  constructor
  · rintro ⟨d, hd, rfl⟩
    obtain ⟨t, ht, rfl⟩ := List.mem_map.mp hd
    exact ⟨t, mem_inOrder.mp ht, (name_ofType t).symm⟩
  · rintro ⟨t, ht, rfl⟩
    exact ⟨_, List.mem_map.mpr ⟨t, mem_inOrder.mpr ht, rfl⟩, name_ofType t⟩

/-- A declared type has a declaration of its own name if it is no entity, or if the name is the camel case
of some entity's name. -/
theorem declares_iff_of_mem {s : Schema} {order : DisplayOrder} (hnames : (s.types.map (·.name)).Nodup)
    {t : NamedType} (ht : t ∈ s.types) :
    s.Declares order t.name ↔ (t.content.isEntity = true →
      ∃ e ∈ s.types, e.content.isEntity = true ∧ camelCase e.name = t.name) := by
  rw [declares_iff]
  constructor
  · rintro ⟨e, he, hname⟩ hentity
    by_cases hkind : e.content.isEntity = true
    · exact ⟨e, he, hkind, by simpa [hkind] using hname⟩
    · -- a declaration under a type's own name is that type's, as no two types have one name
      have hsame : e = t := List.inj_on_of_nodup_map hnames he ht (by simpa [hkind] using hname)
      rw [hsame] at hkind
      exact absurd hentity hkind
  · intro h
    by_cases hkind : t.content.isEntity = true
    · obtain ⟨e, he, hentity, hname⟩ := h hkind
      exact ⟨e, he, by simp [hentity, hname]⟩
    · exact ⟨t, ht, by simp [hkind]⟩

/-! ### Names in declarations -/

/-- The texts with which a declaration refers to types: those of its fields and their arguments, or those of
its members. -/
def Declaration.typeTexts : Declaration → List String
  | scalar .. | enum .. => []
  | union _ types _ => types
  | entity e => e.space.fields.flatMap fun f =>
    f.type :: (f.arguments.elim [] fun args => args.members.map (·.type))

/-- Whether a declaration refers to a type that is not built in by this name. -/
def Declaration.Mentions (d : Declaration) (n : String) : Prop :=
  n ∉ builtinWords ∧ ∃ text ∈ d.typeTexts, .word n ∈ symbols text

theorem typeTexts_ofType (t : NamedType) : (Declaration.ofType t).typeTexts =
    match t.content with
    | .union members => members.map typeName
    | content => content.fieldTypes.map fun type => (type.expression true).text := by
  have houtput (fields : List Field) :
      (Declaration.entity (.ofFields t (fields.map .ofField))).typeTexts =
        (fields.flatMap fun f => f.type :: f.arguments.map (·.type)).map
          fun type => (type.expression true).text := by
    simp [Declaration.typeTexts, Entity.ofFields, FieldShape.ofField, argumentsInterface,
      List.flatMap_map, List.map_flatMap, Function.comp_def]
  have hinput (fields : List InputField) :
      (Declaration.entity (.ofFields t (fields.map .ofInputField))).typeTexts =
        (fields.map (·.type)).map fun type => (type.expression true).text := by
    simp only [Declaration.typeTexts, Entity.ofFields, FieldShape.ofInputField, List.flatMap_map,
      List.map_map]
    exact List.map_eq_flatMap.symm
  unfold Declaration.ofType
  cases t.content with
  | object fields => exact houtput fields
  | interface fields => exact houtput fields
  | inputObject fields => exact hinput fields
  | _ => rfl

/-- A declaration mentions no types but those that its type refers to. -/
theorem mem_references_of_mentions {t : NamedType} (hnamed : ∀ n ∈ t.content.references, isName n = true)
    {n : String} (h : (Declaration.ofType t).Mentions n) : n ∈ t.content.references := by
  obtain ⟨hn, text, htext, hword⟩ := h
  rw [typeTexts_ofType] at htext
  have hfields (types : List FieldType) (hnamed : ∀ n ∈ types.map (·.name), isName n = true)
      (htext : text ∈ types.map fun type => (type.expression true).text) : n ∈ types.map (·.name) := by
    obtain ⟨type, htype, rfl⟩ := List.mem_map.mp htext
    have hmem := List.mem_map_of_mem (f := FieldType.name) htype
    exact eq_name_of_word_mem hn (hnamed _ hmem) hword ▸ hmem
  cases hcontent : t.content with
  | union members =>
    rw [hcontent] at htext hnamed
    obtain ⟨m, hm, rfl⟩ := List.mem_map.mp htext
    rw [symbols_name (isName_typeName (hnamed m hm)), List.mem_singleton, Symbol.word.injEq] at hword
    exact eq_of_typeName_eq hword.symm hn ▸ hm
  | _ =>
    rw [hcontent] at htext hnamed
    exact hfields _ hnamed htext

/-! ### Names in results -/

theorem mem_reserved_of_introspection :
    ∀ t ∈ Builtin.introspection, ∀ n ∈ t.content.references, n ∈ Builtin.reserved := by
  decide

theorem knows_of_anyField? {ds : List Definition} (h : schemaFaults ds = []) {parent name : String}
    {type : FieldType} (hfield : (Schema.ofDefinitions ds).anyField? parent name = some type) :
    (Schema.ofDefinitions ds).Knows type.name := by
  obtain ⟨field, hfound, rfl⟩ := Option.map_eq_some_iff.mp hfield
  obtain ⟨t, ht, hdeclared⟩ := Option.bind_eq_some_iff.mp hfound
  have hreference := mem_references_of_field? hdeclared
  rcases List.mem_append.mp (List.mem_of_find?_eq_some ht) with ht | ht
  · exact knows_of_mem_references h ht hreference
  · rcases List.mem_append.mp ht with ht | ht
    · obtain ⟨scalar, -, rfl⟩ := List.mem_map.mp ht
      cases hdeclared
    · exact .inl (mem_reserved_of_introspection t ht _ hreference)

/-- What operations refer to is declared or built in, if the types of their variables are. -/
theorem knows_of_mem_imports {ds : List Definition} (h : schemaFaults ds = []) {order : DisplayOrder}
    {text : String} {c : Compilation} (hc : compile (.ofDefinitions ds) order text = .ok c)
    (hvariables : ∀ d ∈ operationsOf text, ∀ v ∈ d.variableDefinitions,
      (Schema.ofDefinitions ds).Knows v.type.name)
    {n : String} (hn : n ∈ c.imports) : (Schema.ofDefinitions ds).Knows n :=
  forall_mem_imports hc (fun _ _ _ hfield => knows_of_anyField? h hfield) hvariables n hn

/-! ### References and declarations -/

/-- The name of a declared type is the name of a declaration if and only if it stands for no entity or is the
camel case of an entity's name. -/
theorem declares_iff_of_knows {ds : List Definition} (h : schemaFaults ds = []) {order : DisplayOrder}
    {n : String} (hn : (Schema.ofDefinitions ds).Knows n) (hbuiltin : n ∉ Builtin.reserved) :
    (Schema.ofDefinitions ds).Declares order n ↔
      ∀ t ∈ (Schema.ofDefinitions ds).types, t.name = n → t.content.isEntity = true →
        ∃ e ∈ (Schema.ofDefinitions ds).types, e.content.isEntity = true ∧ camelCase e.name = n := by
  obtain ⟨t, ht, rfl⟩ := hn.resolve_left hbuiltin
  have hnames : ((Schema.ofDefinitions ds).types.map (·.name)).Nodup := nodup_declaredTypes h
  rw [declares_iff_of_mem hnames ht]
  constructor
  · intro h u hu hname hentity
    have hsame : u = t := List.inj_on_of_nodup_map hnames hu ht hname
    exact h (hsame ▸ hentity)
  · exact fun h => h t ht rfl

/-- A name that is not built in and that the types of a schema refer to, that their declarations mention, or
that a document imports, is the name of a declaration if and only if it stands for no entity or is the camel
case of an entity's name. -/
theorem reference_declared_iff {sdl text : String} {s : Schema} {order : DisplayOrder} {c : Compilation}
    (hs : buildSchema sdl = .ok s) (hc : compile s order text = .ok c)
    (hvariables : ∀ d ∈ operationsOf text, ∀ v ∈ d.variableDefinitions, s.Knows v.type.name) {n : String}
    (hn : (∃ t ∈ s.types, n ∈ t.content.references) ∨ (∃ d ∈ c.types, d.Mentions n) ∨ n ∈ c.imports)
    (hbuiltin : n ∉ Builtin.reserved) :
    (∃ d ∈ c.types, d.name = n) ↔ ∀ t ∈ s.types, t.name = n → t.content.isEntity = true →
      ∃ e ∈ s.types, e.content.isEntity = true ∧ camelCase e.name = n := by
  have hnamed := named_of_buildSchema hs
  obtain ⟨ds, -, hfaults, rfl⟩ := buildSchema_eq_ok hs
  rw [(compile_eq_ok hc).1] at hn ⊢
  have hknown : (Schema.ofDefinitions ds).Knows n := by
    rcases hn with ⟨t, ht, hn⟩ | ⟨d, hd, hn⟩ | hn
    · exact knows_of_mem_references hfaults ht hn
    · obtain ⟨t, ht, rfl⟩ := List.mem_map.mp hd
      have ht := mem_inOrder.mp ht
      exact knows_of_mem_references hfaults ht
        (mem_references_of_mentions (hnamed t (List.mem_append_left _ ht)) hn)
    · exact knows_of_mem_imports hfaults hc hvariables hn
  exact declares_iff_of_knows hfaults hknown hbuiltin

/-- The type `post_author` is declared as `PostAuthor`, and both the declaration of `Query` and the imports of
an operation refer to it by its own name. -/
theorem post_author_not_declared :
    let sdl := "type Query \x7b a: post_author \x7d type post_author \x7b n: Int \x7d"
    let text := "query Q \x7b a \x7d"
    ∃ s c, buildSchema sdl = .ok s ∧ compile s .byKind text = .ok c ∧
      (operationsOf text).flatMap (·.variableDefinitions.map (·.name)) = [] ∧
      "post_author" ∉ Builtin.reserved ∧ (∃ d ∈ c.types, d.Mentions "post_author") ∧
      "post_author" ∈ c.imports ∧ ¬ ∃ d ∈ c.types, d.name = "post_author" := by
  intro sdl text
  have hrun : ((buildSchema sdl).toOption.bind fun s => (compile s .byKind text).toOption.map fun c =>
      (c.types.map (·.name), c.types.flatMap (·.typeTexts), c.imports)) =
        some (["Query", "PostAuthor"], ["post_author | null", "number | null"], ["post_author"]) := by
    decide +kernel
  obtain ⟨s, hs, hrun⟩ := Option.bind_eq_some_iff.mp hrun
  obtain ⟨c, hc, hrun⟩ := Option.map_eq_some_iff.mp hrun
  simp only [Prod.mk.injEq] at hrun
  obtain ⟨hnames, htexts, himports⟩ := hrun
  have hvariables : (operationsOf text).flatMap (·.variableDefinitions.map (·.name)) = [] := by
    decide +kernel
  refine ⟨s, c, toOption_eq_some_iff.mp hs, toOption_eq_some_iff.mp hc, hvariables, by decide, ?_, ?_, ?_⟩
  · have htext : "post_author | null" ∈ c.types.flatMap (·.typeTexts) := by
      rw [htexts]
      decide
    obtain ⟨d, hd, htext⟩ := List.mem_flatMap.mp htext
    exact ⟨d, hd, by decide, _, htext, by decide⟩
  · rw [himports]
    decide
  · rw [← List.mem_map, hnames]
    decide

theorem reference_declared_at_tag :
    let sdl := "type Query \x7b a(t: Tag): [post_author!] \x7d enum Tag \x7b NEW \x7d type post_author \x7b n: Tag \x7d"
    let text := "query Q($t: Tag) \x7b a(t: $t) \x7b n \x7d \x7d"
    ∃ s c, buildSchema sdl = .ok s ∧ compile s .asIs text = .ok c ∧
      (∀ d ∈ operationsOf text, ∀ v ∈ d.variableDefinitions, s.Knows v.type.name) ∧
      "Tag" ∈ c.imports ∧ "Tag" ∉ Builtin.reserved ∧ ∃ d ∈ c.types, d.name = "Tag" := by
  intro sdl text
  have hrun : ((buildSchema sdl).toOption.bind fun s => (compile s .asIs text).toOption.map fun c =>
      (s.types.map fun t => (t.name, t.content.isEntity), c.imports)) =
        some ([("Query", true), ("Tag", false), ("post_author", true)], ["Tag"]) := by
    decide +kernel
  obtain ⟨s, hs, hrun⟩ := Option.bind_eq_some_iff.mp hrun
  obtain ⟨c, hc, hrun⟩ := Option.map_eq_some_iff.mp hrun
  rw [toOption_eq_some_iff] at hs hc
  simp only [Prod.mk.injEq] at hrun
  obtain ⟨htypes, himports⟩ := hrun
  have hknown : ∀ d ∈ operationsOf text, ∀ v ∈ d.variableDefinitions, s.Knows v.type.name := by
    have hvariables : (operationsOf text).flatMap (·.variableDefinitions.map (·.type.name)) = ["Tag"] := by
      decide +kernel
    intro d hd v hv
    have hmem : v.type.name ∈ ["Tag"] :=
      hvariables ▸ List.mem_flatMap.mpr ⟨d, hd, List.mem_map_of_mem hv⟩
    have hname : ("Tag", false) ∈ s.types.map fun t => (t.name, t.content.isEntity) := by
      rw [htypes]
      decide
    obtain ⟨t, ht, hname⟩ := List.mem_map.mp hname
    rw [List.mem_singleton.mp hmem]
    exact .inr ⟨t, ht, congrArg Prod.fst hname⟩
  have himport : "Tag" ∈ c.imports := by
    rw [himports]
    decide
  refine ⟨s, c, hs, hc, hknown, himport, by decide, ?_⟩
  refine (reference_declared_iff hs hc hknown (.inr (.inr himport)) (by decide)).mpr ?_
  intro t ht hname hentity
  have hmem := List.mem_map_of_mem (f := fun t : NamedType => (t.name, t.content.isEntity)) ht
  rw [htypes, hname, hentity] at hmem
  exact absurd hmem (by decide)

end GraphDecl
