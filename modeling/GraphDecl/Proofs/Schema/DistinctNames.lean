import GraphDecl.Proofs.Naming
import GraphDecl.Proofs.Schema.Exports

/-!
Which types share the name of a declaration. The types of a schema have different names, but the camel case of
two names can be the same, and the camel case of one name can be another name.
-/

namespace GraphDecl

/-! ### Names in camel case -/

/-- No underscore separates words in the name, and its first letter is in upper case. -/
structure InCamelCase (n : String) : Prop where
  words : '_' ∉ n.toList
  upper : n.toList.head?.any Char.isUpper = true

instance (n : String) : Decidable (InCamelCase n) :=
  decidable_of_iff ('_' ∉ n.toList ∧ n.toList.head?.any Char.isUpper = true)
    ⟨fun h => ⟨h.1, h.2⟩, fun h => ⟨h.words, h.upper⟩⟩

/-- A name in camel case stays as it is. -/
theorem camelCase_eq_self {n : String} (hname : isName n = true) (h : InCamelCase n) : camelCase n = n := by
  refine (camelCase_eq_self_iff fun c => isNameContinue_of_mem hname).mpr ⟨h.words, ?_⟩
  have hfirst := h.upper
  cases hn : n.toList with
  | nil => rfl
  | cons c r =>
    rw [hn] at hfirst
    rw [capitalized, toUpper_of_isUpper hfirst]

/-! ### Names of declarations -/

theorem isName_of_mem_types {sdl : String} {s : Schema} (hs : buildSchema sdl = .ok s) {t : NamedType}
    (ht : t ∈ s.types) : isName t.name = true := by
  obtain ⟨ds, hnamed, -, rfl⟩ := buildSchema_eq_ok hs
  obtain ⟨declared, hdeclared, rfl⟩ := List.mem_map.mp ht
  obtain ⟨d, hd, rfl⟩ := List.mem_map.mp hdeclared
  obtain ⟨e, he, htype⟩ := List.mem_filterMap.mp (List.mem_of_mem_filter hd)
  cases e with
  | type e =>
    cases htype
    exact (hnamed _ he).1
  | _ => cases htype

theorem nodup_names {sdl : String} {s : Schema} (hs : buildSchema sdl = .ok s) :
    (s.types.map (·.name)).Nodup := by
  obtain ⟨ds, -, hfaults, rfl⟩ := buildSchema_eq_ok hs
  exact nodup_declaredTypes hfaults

/-- The names of objects, interfaces and input types stay apart in camel case, from one another and from the
names of all other types. -/
structure Schema.StaysApart (s : Schema) : Prop where
  entities : ∀ t ∈ s.types, ∀ u ∈ s.types, t.content.isEntity = true → u.content.isEntity = true →
    camelCase t.name = camelCase u.name → t.name = u.name
  others : ∀ t ∈ s.types, ∀ u ∈ s.types, t.content.isEntity = true → u.content.isEntity = false →
    camelCase t.name ≠ u.name

theorem staysApart_of_inCamelCase {sdl : String} {s : Schema} (hs : buildSchema sdl = .ok s)
    (h : ∀ t ∈ s.types, t.content.isEntity = true → InCamelCase t.name) : s.StaysApart := by
  have hself : ∀ t ∈ s.types, t.content.isEntity = true → camelCase t.name = t.name :=
    fun t ht hentity => camelCase_eq_self (isName_of_mem_types hs ht) (h t ht hentity)
  refine ⟨?_, ?_⟩
  · intro t ht u hu htentity huentity hname
    rwa [hself t ht htentity, hself u hu huentity] at hname
  · intro t ht u hu htentity huother hname
    rw [hself t ht htentity] at hname
    rw [List.inj_on_of_nodup_map (nodup_names hs) ht hu hname, huother] at htentity
    cases htentity

/-- Declarations have different names if the types stay apart in camel case. -/
theorem nodup_declarations_iff {sdl : String} {s : Schema} (hs : buildSchema sdl = .ok s)
    (order : DisplayOrder) : ((s.declarations order).map (·.name)).Nodup ↔ s.StaysApart := by
  have hperm : ((s.declarations order).map (·.name)).Perm
      (s.types.map fun t => (Declaration.ofType t).name) := by
    rw [Schema.declarations, List.map_map]
    exact (perm_inOrder s order).map _
  have hnames := nodup_names hs
  rw [hperm.nodup_iff, List.nodup_map_iff_inj_on hnames.of_map]
  simp only [name_ofType]
  constructor
  · intro h
    refine ⟨?_, ?_⟩
    · intro t ht u hu htentity huentity hname
      rw [h t ht u hu (by simpa [htentity, huentity] using hname)]
    · intro t ht u hu htentity huother hname
      rw [h t ht u hu (by simpa [htentity, huother] using hname), huother] at htentity
      cases htentity
  · intro h t ht u hu hname
    -- no two types have one name, so that it is enough to find the same name
    refine List.inj_on_of_nodup_map hnames ht hu ?_
    cases htentity : t.content.isEntity with
    | true =>
      rw [htentity, if_pos rfl] at hname
      cases huentity : u.content.isEntity with
      | true =>
        rw [huentity, if_pos rfl] at hname
        exact h.entities t ht u hu htentity huentity hname
      | false =>
        rw [huentity, if_neg Bool.false_ne_true] at hname
        exact absurd hname (h.others t ht u hu htentity huentity)
    | false =>
      rw [htentity, if_neg Bool.false_ne_true] at hname
      cases huentity : u.content.isEntity with
      | true =>
        rw [huentity, if_pos rfl] at hname
        exact absurd hname.symm (h.others u hu t ht huentity htentity)
      | false =>
        rwa [huentity, if_neg Bool.false_ne_true] at hname

/-- All declarations of a schema have different names, if and only if no two of its objects, interfaces and
input types have names with the same camel case, and no other type has such a camel case as its name. This is
so if all objects, interfaces and input types have names in camel case. -/
theorem distinct_declarations_iff {sdl : String} {s : Schema} (hs : buildSchema sdl = .ok s)
    (order : DisplayOrder) :
    (((s.declarations order).map (·.name)).Nodup ↔ s.StaysApart) ∧
      ((∀ t ∈ s.types, t.content.isEntity = true → InCamelCase t.name) →
        ((s.declarations order).map (·.name)).Nodup) := by
  refine ⟨nodup_declarations_iff hs order, ?_⟩
  intro h
  exact (nodup_declarations_iff hs order).mpr (staysApart_of_inCamelCase hs h)

/-- Two types with the declaration `PostAuthor`. -/
theorem post_author_declared_twice :
    let sdl := "type Query \x7b a: Int \x7d type post_author \x7b n: Int \x7d type PostAuthor \x7b m: Int \x7d"
    ∃ s, buildSchema sdl = .ok s ∧ s.types.map (·.name) = ["Query", "post_author", "PostAuthor"] ∧
      (s.declarations .byKind).map (·.name) = ["Query", "PostAuthor", "PostAuthor"] ∧
      ¬ ((s.declarations .byKind).map (·.name)).Nodup := by
  intro sdl
  have hrun : (buildSchema sdl).toOption.map (fun s =>
      (s.types.map (·.name), (s.declarations .byKind).map (·.name))) =
        some (["Query", "post_author", "PostAuthor"], ["Query", "PostAuthor", "PostAuthor"]) := by
    decide +kernel
  obtain ⟨s, hs, hrun⟩ := Option.map_eq_some_iff.mp hrun
  obtain ⟨htypes, hnames⟩ := Prod.mk.inj hrun
  refine ⟨s, toOption_eq_some_iff.mp hs, htypes, hnames, ?_⟩
  rw [hnames]
  decide

/-- The input type `tag` is declared as `Tag`, and so is the scalar of that name. With the names the other way
round, each keeps its own. -/
theorem distinct_declarations_of_tag :
    let clash := "type Query \x7b a: Int \x7d scalar Tag input tag \x7b n: Int \x7d"
    let apart := "type Query \x7b a: Int \x7d scalar tag input Tag \x7b n: Int \x7d"
    (∃ s, buildSchema clash = .ok s ∧ ¬ s.StaysApart) ∧
      ∃ s, buildSchema apart = .ok s ∧ (∀ t ∈ s.types, t.content.isEntity = true → InCamelCase t.name) ∧
        ((s.declarations .byKind).map (·.name)).Nodup := by
  intro clash apart
  have hclash : (buildSchema clash).toOption.map (fun s => (s.declarations .byKind).map (·.name)) =
      some ["Tag", "Tag", "Query"] := by
    decide +kernel
  have hapart : (buildSchema apart).toOption.map (fun s =>
      s.types.all fun t => decide (t.content.isEntity = true → InCamelCase t.name)) = some true := by
    decide +kernel
  refine ⟨?_, ?_⟩
  · obtain ⟨s, hs, hnames⟩ := Option.map_eq_some_iff.mp hclash
    rw [toOption_eq_some_iff] at hs
    refine ⟨s, hs, ?_⟩
    rw [← (distinct_declarations_iff hs .byKind).1, hnames]
    decide
  · obtain ⟨s, hs, hnames⟩ := Option.map_eq_some_iff.mp hapart
    rw [toOption_eq_some_iff] at hs
    have hcamel : ∀ t ∈ s.types, t.content.isEntity = true → InCamelCase t.name := by
      simpa only [List.all_eq_true, decide_eq_true_eq] using hnames
    exact ⟨s, hs, hcamel, (distinct_declarations_iff hs .byKind).2 hcamel⟩

end GraphDecl
