import Mathlib.Data.List.Nodup
import GraphDecl.Proofs.Document.NamedDefinitions
import GraphDecl.Schema.Build

/-!
The types that a schema refers to. Definitions that keep the rules define every type that a field, an
argument, an input field or a union refers to, unless it is built in, and no type twice.
-/

namespace GraphDecl

/-! ### References -/

def FieldDefinition.references (d : FieldDefinition) : List String :=
  d.type.name :: d.arguments.map (·.type.name)

def TypeBody.references : TypeBody → List String
  | object _ fields | interface _ fields => fields.flatMap (·.references)
  | union members => members
  | inputObject fields => fields.map (·.type.name)
  | scalar | enum _ => []

/-- The named types that a type refers to: those of its fields and their arguments, and its members. -/
def TypeContent.references : TypeContent → List String
  | union members => members
  | content => content.fieldTypes.map (·.name)

def Definition.body? : Definition → Option TypeBody
  | type d => some d.body
  | typeExtension d => some d.body
  | _ => none

theorem names_ofDefinition (fields : List FieldDefinition) :
    (((fields.map Field.ofDefinition).flatMap fun f => f.type :: f.arguments.map (·.type)).map (·.name)) =
      fields.flatMap (·.references) := by
  simp [List.map_flatMap, List.flatMap_map, Field.ofDefinition, InputField.ofDefinition,
    FieldDefinition.references, Function.comp_def]

theorem mem_references_of_field? {content : TypeContent} {name : String} {field : AnyField}
    (h : content.field? name = some field) : field.type.name ∈ content.references := by
  have houtput {fields : List Field}
      (h : (fields.find? (·.name == name)).map .output = some field) :
      field.type.name ∈ (fields.flatMap fun f => f.type :: f.arguments.map (·.type)).map (·.name) := by
    obtain ⟨f, hf, rfl⟩ := Option.map_eq_some_iff.mp h
    refine List.mem_map_of_mem (List.mem_flatMap.mpr ⟨f, List.mem_of_find?_eq_some hf, ?_⟩)
    exact List.mem_cons_self
  cases content with
  | object fields => exact houtput h
  | interface fields => exact houtput h
  | inputObject fields =>
    obtain ⟨f, hf, rfl⟩ := Option.map_eq_some_iff.mp h
    exact List.mem_map_of_mem (List.mem_map_of_mem (List.mem_of_find?_eq_some hf))
  | _ => cases h

theorem exists_part_of_reference {kind : TypeKind} {parts : List TypeBody} {n : String}
    (h : n ∈ (TypeContent.ofParts kind parts).references) : ∃ b ∈ parts, n ∈ b.references := by
  have houtput (hn : n ∈ (parts.flatMap (·.outputFields)).flatMap (·.references)) :
      ∃ b ∈ parts, n ∈ b.references := by
    obtain ⟨f, hf, hn⟩ := List.mem_flatMap.mp hn
    obtain ⟨b, hb, hf⟩ := List.mem_flatMap.mp hf
    refine ⟨b, hb, ?_⟩
    cases b with
    | object interfaces fields => exact List.mem_flatMap.mpr ⟨f, hf, hn⟩
    | interface interfaces fields => exact List.mem_flatMap.mpr ⟨f, hf, hn⟩
    | _ => cases hf
  cases kind with
  | scalar => cases h
  | enum => cases h
  | object => exact houtput (names_ofDefinition _ ▸ h)
  | interface => exact houtput (names_ofDefinition _ ▸ h)
  | union =>
    obtain ⟨b, hb, hn⟩ := List.mem_flatMap.mp h
    refine ⟨b, hb, ?_⟩
    cases b with
    | union members => exact hn
    | _ => cases hn
  | inputObject =>
    simp only [TypeContent.ofParts, TypeContent.references, TypeContent.fieldTypes, List.map_map] at h
    obtain ⟨f, hf, rfl⟩ := List.mem_map.mp h
    obtain ⟨b, hb, hf⟩ := List.mem_flatMap.mp hf
    refine ⟨b, hb, ?_⟩
    cases b with
    | inputObject fields => exact List.mem_map.mpr ⟨f, hf, (TypeRef.name_toFieldType _).symm⟩
    | _ => cases hf

/-- A type that is built in, or that the schema declares. -/
def Schema.Knows (s : Schema) (n : String) : Prop := n ∈ Builtin.reserved ∨ ∃ t ∈ s.types, t.name = n

/-! ### Rules -/

namespace Rules

theorem definitionFaults_eq_nil_of_mem {s : Scope} {earlier ds : List Definition}
    (h : faultsAfter s earlier ds = []) {d : Definition} (hd : d ∈ ds) :
    ∃ before, definitionFaults s before d = [] := by
  induction ds generalizing earlier with
  | nil => cases hd
  | cons e es ih =>
    obtain ⟨hfirst, hrest⟩ := List.append_eq_nil_iff.mp h
    rcases List.mem_cons.mp hd with rfl | hd
    · exact ⟨earlier, hfirst⟩
    · exact ih hrest hd

/-- The names of the types that definitions define, also of those that are built in. -/
def definedNames (ds : List Definition) : List String := (ds.filterMap (·.type?)).map (·.name)

/-- No definition defines a type that an earlier one defines. -/
theorem nodup_definedNames {s : Scope} {earlier ds : List Definition}
    (hearlier : (definedNames earlier).Nodup) (h : faultsAfter s earlier ds = []) :
    (definedNames (earlier ++ ds)).Nodup := by
  -- each definition is checked against all earlier ones, which grow with every step
  induction ds generalizing earlier with
  | nil => simpa using hearlier
  | cons d ds ih =>
    obtain ⟨hd, hds⟩ := List.append_eq_nil_iff.mp h
    have hnext : (definedNames (earlier ++ [d])).Nodup := by
      cases d with
      | type d =>
        have hnew := (List.append_eq_nil_iff.mp (List.append_eq_nil_iff.mp
          (List.append_eq_nil_iff.mp hd).1).1).1
        have hfresh : d.name ∉ definedNames earlier := by
          intro hmem
          obtain ⟨e, he, hname⟩ := List.mem_map.mp hmem
          have hany : (earlier.filterMap (·.type?)).any (·.name == d.name) = true :=
            List.any_eq_true.mpr ⟨e, he, by simpa using hname⟩
          rw [if_pos hany] at hnew
          cases hnew
        have hsplit : definedNames (earlier ++ [.type d]) = definedNames earlier ++ [d.name] := by
          simp [definedNames, Definition.type?]
        rw [hsplit]
        exact hearlier.append (List.nodup_singleton _) (by simpa using hfresh)
      | _ => simpa [definedNames, Definition.type?] using hearlier
    simpa using ih hnext hds

theorem knows_of_typeNameFaults {ds : List Definition} {n : String}
    (h : typeNameFaults (.ofDefinitions ds) false n = []) : (Schema.ofDefinitions ds).Knows n := by
  by_cases hreserved : n ∈ Builtin.reserved
  · exact .inl hreserved
  have hdefined : ((Scope.ofDefinitions ds).type? n).isSome = true := by
    by_contra hnone
    simp [typeNameFaults, hnone, hreserved] at h
  obtain ⟨d, hd⟩ := Option.isSome_iff_exists.mp hdefined
  obtain ⟨hname, hmem⟩ : d.name = n ∧ d ∈ ds.filterMap (·.type?) := by
    refine ⟨by simpa using List.find?_some hd, ?_⟩
    exact List.mem_reverse.mp (List.mem_of_find?_eq_some hd)
  refine .inr ⟨_, List.mem_map.mpr ⟨⟨d, _⟩, List.mem_map.mpr ⟨d, ?_, rfl⟩, rfl⟩, hname⟩
  simpa [hname, hreserved] using hmem

theorem knows_of_inputValueFaults {ds : List Definition} {place : DirectiveLocation}
    {d : InputValueDefinition} (h : inputValueFaults (.ofDefinitions ds) place d = []) :
    (Schema.ofDefinitions ds).Knows d.type.name := by
  simp only [inputValueFaults, List.append_eq_nil_iff] at h
  exact knows_of_typeNameFaults h.1.1.2

theorem knows_of_bodyFaults {ds : List Definition} {place : DirectiveLocation} {dirs : List Directive}
    {body : TypeBody} (h : bodyFaults (.ofDefinitions ds) place dirs body = []) {n : String}
    (hn : n ∈ body.references) : (Schema.ofDefinitions ds).Knows n := by
  have hfields {fields : List FieldDefinition}
      (h : fields.flatMap (fieldFaults (.ofDefinitions ds)) = [])
      (hn : n ∈ fields.flatMap (·.references)) : (Schema.ofDefinitions ds).Knows n := by
    obtain ⟨f, hf, hn⟩ := List.mem_flatMap.mp hn
    have hf := List.flatMap_eq_nil_iff.mp h f hf
    simp only [fieldFaults, List.append_eq_nil_iff, List.flatMap_eq_nil_iff] at hf
    obtain ⟨⟨⟨-, harguments⟩, htype⟩, -⟩ := hf
    rcases List.mem_cons.mp hn with rfl | hn
    · exact knows_of_typeNameFaults htype
    · obtain ⟨a, ha, rfl⟩ := List.mem_map.mp hn
      exact knows_of_inputValueFaults (harguments a ha)
  cases body with
  | scalar => cases hn
  | enum values => cases hn
  | object interfaces fields => exact hfields (List.append_eq_nil_iff.mp h).2 hn
  | interface interfaces fields => exact hfields (List.append_eq_nil_iff.mp h).2 hn
  | union members =>
    exact knows_of_typeNameFaults (List.flatMap_eq_nil_iff.mp (List.append_eq_nil_iff.mp h).2 n hn)
  | inputObject fields =>
    obtain ⟨f, hf, rfl⟩ := List.mem_map.mp hn
    exact knows_of_inputValueFaults (List.flatMap_eq_nil_iff.mp (List.append_eq_nil_iff.mp h).2 f hf)

theorem bodyFaults_eq_nil_of_body? {s : Scope} {before : List Definition} {d : Definition}
    (h : definitionFaults s before d = []) {b : TypeBody} (hb : d.body? = some b) :
    ∃ place dirs, bodyFaults s place dirs b = [] := by
  cases d with
  | type d =>
    cases hb
    exact ⟨_, _, (List.append_eq_nil_iff.mp h).2⟩
  | typeExtension d =>
    cases hb
    exact ⟨_, _, (List.append_eq_nil_iff.mp h).2⟩
  | _ => cases hb

end Rules

/-! ### Schemas that are built -/

theorem nodup_declaredTypes {ds : List Definition} (h : schemaFaults ds = []) :
    ((declaredTypes ds).map (·.name)).Nodup := by
  have hnone : (Rules.definedNames []).Nodup := List.nodup_nil
  have hdefined : (Rules.definedNames ds).Nodup := Rules.nodup_definedNames hnone h
  have hnames : (declaredTypes ds).map (·.name) =
      ((ds.filterMap (·.type?)).filter (!Builtin.reserved.contains ·.name)).map (·.name) := by
    simp only [declaredTypes, declaredParts, List.map_map]
    rfl
  rw [hnames]
  exact hdefined.sublist (List.filter_sublist.map _)

/-- The parts of a declared type are what the definitions of the document say of types. -/
theorem exists_definition_of_part {ds : List Definition} {declared : DeclaredType}
    (hdeclared : declared ∈ declaredParts ds) {b : TypeBody} (hb : b ∈ declared.parts) :
    ∃ d ∈ ds, d.body? = some b := by
  obtain ⟨d, hd, rfl⟩ := List.mem_map.mp hdeclared
  rcases List.mem_cons.mp hb with rfl | hb
  · obtain ⟨e, he, htype⟩ := List.mem_filterMap.mp (List.mem_of_mem_filter hd)
    cases e with
    | type e =>
      cases htype
      exact ⟨_, he, rfl⟩
    | _ => cases htype
  · obtain ⟨e, he, hbody⟩ := List.mem_filterMap.mp hb
    cases e with
    | typeExtension e =>
      obtain ⟨-, rfl⟩ : e.name = d.name ∧ e.body = b := by simpa using hbody
      exact ⟨_, he, rfl⟩
    | _ => cases hbody

theorem exists_definition_of_reference {ds : List Definition} {t : NamedType} (ht : t ∈ declaredTypes ds)
    {n : String} (hn : n ∈ t.content.references) :
    ∃ d ∈ ds, ∃ b, d.body? = some b ∧ n ∈ b.references := by
  obtain ⟨declared, hdeclared, rfl⟩ := List.mem_map.mp ht
  obtain ⟨b, hb, hn⟩ := exists_part_of_reference hn
  obtain ⟨d, hd, hbody⟩ := exists_definition_of_part hdeclared hb
  exact ⟨d, hd, b, hbody, hn⟩

theorem knows_of_mem_references {ds : List Definition} (h : schemaFaults ds = []) {t : NamedType}
    (ht : t ∈ declaredTypes ds) {n : String} (hn : n ∈ t.content.references) :
    (Schema.ofDefinitions ds).Knows n := by
  obtain ⟨d, hd, b, hb, hn⟩ := exists_definition_of_reference ht hn
  obtain ⟨before, hfaults⟩ := Rules.definitionFaults_eq_nil_of_mem h hd
  obtain ⟨place, dirs, hbody⟩ := Rules.bodyFaults_eq_nil_of_body? hfaults hb
  exact Rules.knows_of_bodyFaults hbody hn

/-- A schema is built from the definitions of a text that keep the rules and fit together. -/
theorem buildSchema_eq_ok_iff {text : String} {s : Schema} :
    buildSchema text = .ok s ↔ ∃ passages, parseDocument text = .ok passages ∧
      schemaFaults (passages.map (·.definition)) = [] ∧ resolve (passages.map (·.definition)) = .ok () ∧
        s = .ofDefinitions (passages.map (·.definition)) := by
  unfold buildSchema
  constructor
  · intro h
    split at h
    · cases h
    · next passages hparse =>
      dsimp only at h
      split at h
      · next hfaults hresolve =>
        cases h
        exact ⟨passages, hparse, hfaults, hresolve, rfl⟩
      · cases h
      · cases h
  · rintro ⟨passages, hparse, hfaults, hresolve, rfl⟩
    simp only [hparse, hfaults, hresolve]

theorem buildSchema_eq_ok {text : String} {s : Schema} (h : buildSchema text = .ok s) :
    ∃ ds : List Definition, (∀ d ∈ ds, d.Named) ∧ schemaFaults ds = [] ∧ s = .ofDefinitions ds := by
  obtain ⟨passages, hparse, hfaults, -, rfl⟩ := buildSchema_eq_ok_iff.mp h
  refine ⟨_, ?_, hfaults, rfl⟩
  intro d hd
  obtain ⟨p, hp, rfl⟩ := List.mem_map.mp hd
  exact named_of_parseDocument hparse p hp

/-! ### Names -/

def Schema.Named (s : Schema) : Prop :=
  ∀ t ∈ s.types ++ s.builtin, ∀ n ∈ t.content.references, isName n = true

theorem named_of_body? {d : Definition} (hd : d.Named) {b : TypeBody} (hb : d.body? = some b) : b.Named := by
  cases d with
  | type d =>
    cases hb
    exact hd.2
  | typeExtension d =>
    cases hb
    exact hd.2
  | _ => cases hb

def InputField.Named (f : InputField) : Prop := isName f.name = true ∧ isName f.type.name = true

structure Field.Named (f : Field) : Prop where
  name : isName f.name = true
  arguments : ∀ a ∈ f.arguments, a.Named
  type : isName f.type.name = true

/-- What a type consists of is said with names. -/
def TypeContent.Named : TypeContent → Prop
  | scalar => True
  | object fields | interface fields => ∀ f ∈ fields, f.Named
  | union members => ∀ m ∈ members, isName m = true
  | enum values => ∀ v ∈ values, isName v.name = true
  | inputObject fields => ∀ f ∈ fields, f.Named

theorem InputField.named_ofDefinition {d : InputValueDefinition} (h : d.Named) : (ofDefinition d).Named :=
  ⟨h.1, d.type.name_toFieldType ▸ h.2⟩

theorem Field.named_ofDefinition {d : FieldDefinition} (h : d.Named) : (ofDefinition d).Named :=
  ⟨h.name, List.forall_mem_map.mpr fun a ha => InputField.named_ofDefinition (h.arguments a ha),
    d.type.name_toFieldType ▸ h.type⟩

theorem named_ofParts {parts : List TypeBody} (h : ∀ b ∈ parts, b.Named) (kind : TypeKind) :
    (TypeContent.ofParts kind parts).Named := by
  have hfields : ∀ f ∈ (parts.flatMap (·.outputFields)).map Field.ofDefinition, f.Named := by
    refine List.forall_mem_map.mpr fun f hf => ?_
    obtain ⟨b, hb, hf⟩ := List.mem_flatMap.mp hf
    cases b with
    | object interfaces fields => exact Field.named_ofDefinition ((h _ hb).2 f hf)
    | interface interfaces fields => exact Field.named_ofDefinition ((h _ hb).2 f hf)
    | _ => cases hf
  cases kind with
  | scalar => exact trivial
  | object => exact hfields
  | interface => exact hfields
  | union =>
    intro m hm
    obtain ⟨b, hb, hm⟩ := List.mem_flatMap.mp hm
    cases b with
    | union members => exact h _ hb m hm
    | _ => cases hm
  | enum =>
    refine List.forall_mem_map.mpr fun v hv => ?_
    obtain ⟨b, hb, hv⟩ := List.mem_flatMap.mp hv
    cases b with
    | enum values => exact h _ hb v hv
    | _ => cases hv
  | inputObject =>
    refine List.forall_mem_map.mpr fun f hf => ?_
    obtain ⟨b, hb, hf⟩ := List.mem_flatMap.mp hf
    cases b with
    | inputObject fields => exact InputField.named_ofDefinition (h _ hb f hf)
    | _ => cases hf

theorem named_of_mem_types {text : String} {s : Schema} (hs : buildSchema text = .ok s) {t : NamedType} (ht : t ∈ s.types) :
    t.content.Named := by
  obtain ⟨ds, hnamed, -, rfl⟩ := buildSchema_eq_ok hs
  obtain ⟨declared, hdeclared, rfl⟩ := List.mem_map.mp ht
  refine named_ofParts (fun b hb => ?_) _
  obtain ⟨d, hd, hbody⟩ := exists_definition_of_part hdeclared hb
  exact named_of_body? (hnamed d hd) hbody

theorem TypeContent.Named.references {content : TypeContent} (h : content.Named) :
    ∀ n ∈ content.references, isName n = true := by
  have houtput {fields : List Field} (hfields : ∀ f ∈ fields, f.Named) :
      ∀ n ∈ (fields.flatMap fun f => f.type :: f.arguments.map (·.type)).map (·.name), isName n = true := by
    refine List.forall_mem_map.mpr fun type htype => ?_
    obtain ⟨f, hf, htype⟩ := List.mem_flatMap.mp htype
    rcases List.mem_cons.mp htype with rfl | htype
    · exact (hfields f hf).type
    · obtain ⟨a, ha, rfl⟩ := List.mem_map.mp htype
      exact ((hfields f hf).arguments a ha).2
  cases content with
  | scalar => exact fun n hn => nomatch hn
  | enum values => exact fun n hn => nomatch hn
  | object fields => exact houtput h
  | interface fields => exact houtput h
  | union members => exact h
  | inputObject fields => exact List.forall_mem_map.mpr (List.forall_mem_map.mpr fun f hf => (h f hf).2)

theorem named_of_buildSchema {text : String} {s : Schema} (h : buildSchema text = .ok s) : s.Named := by
  intro t ht
  rcases List.mem_append.mp ht with ht | ht
  · exact (named_of_mem_types h ht).references
  · obtain ⟨ds, -, -, rfl⟩ := buildSchema_eq_ok h
    have hintrospection : ∀ t ∈ Builtin.introspection, ∀ n ∈ t.content.references, isName n = true := by
      decide +kernel
    rcases List.mem_append.mp ht with ht | ht
    · obtain ⟨scalar, -, rfl⟩ := List.mem_map.mp ht
      exact fun n hn => nomatch hn
    · exact hintrospection t ht

end GraphDecl
