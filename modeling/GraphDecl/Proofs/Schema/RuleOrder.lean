import Mathlib.Data.List.Nodup
import GraphDecl.Proofs.Schema.Unplaced

/-!
Rules and the order of definitions. Without extensions of types, a document keeps the rules if each definition
does on its own and no two definitions claim the same, so that the definitions can stand in any order.
-/

namespace GraphDecl

/-! ### Items found by their names -/

theorem find?_eq_some_iff_of_nodup {α : Type} {name : α → String} {xs : List α}
    (h : (xs.map name).Nodup) {n : String} {x : α} :
    xs.find? (name · == n) = some x ↔ x ∈ xs ∧ name x = n := by
  constructor
  · intro hx
    exact ⟨List.mem_of_find?_eq_some hx, by simpa using List.find?_some hx⟩
  · rintro ⟨hx, rfl⟩
    have hsome : (xs.find? (name · == name x)).isSome = true := List.find?_isSome.mpr ⟨x, hx, by simp⟩
    obtain ⟨y, hy⟩ := Option.isSome_iff_exists.mp hsome
    have hname : name y = name x := by simpa using List.find?_some hy
    rw [hy, List.inj_on_of_nodup_map h (List.mem_of_find?_eq_some hy) hx hname]

/-- Among items with different names, the order makes no difference to what a name finds. -/
theorem find?_eq_of_perm {α : Type} {name : α → String} {xs ys : List α} (h : (xs.map name).Nodup)
    (hperm : ys.Perm xs) (n : String) : ys.find? (name · == n) = xs.find? (name · == n) := by
  have hys : (ys.map name).Nodup := (hperm.map name).nodup_iff.mpr h
  apply Option.ext
  intro x
  rw [find?_eq_some_iff_of_nodup h, find?_eq_some_iff_of_nodup hys, hperm.mem_iff]

namespace Rules

/-! ### Definitions that stand apart -/

/-- Nothing is repeated if all items differ, from one another and from those before. -/
theorem repeats_eq_nil_iff {α : Type} [DecidableEq α] {seen xs : List α} :
    repeats seen xs = [] ↔ xs.Nodup ∧ List.Disjoint seen xs := by
  induction xs generalizing seen with
  | nil => simp [repeats]
  | cons x xs ih =>
    rw [repeats]
    split
    · next hx => simp [List.disjoint_cons_right, hx]
    · next hx =>
      rw [ih, List.nodup_cons, List.disjoint_cons_left, List.disjoint_cons_right]
      exact ⟨fun ⟨hxs, hnew, hold⟩ => ⟨⟨hnew, hxs⟩, hx, hold⟩, fun ⟨⟨hnew, hxs⟩, _, hold⟩ => ⟨hxs, hnew, hold⟩⟩

/-- The directives of a schema definition or extension that may stand only once. -/
def schemaSingles (s : Scope) (d : Definition) : List String := singleDirectives s (schemaDirectives d)

/-- The two definitions can stand in one document: they define different types and directives, and are
together no second schema. -/
structure Apart (s : Scope) (d e : Definition) : Prop where
  schema : isSchemaDefinition d = true → isSchemaDefinition e = false
  types : ∀ t, d.type? = some t → ∀ u, e.type? = some u → t.name ≠ u.name
  directives : ∀ t, d.directive? = some t → ∀ u, e.directive? = some u → t.name ≠ u.name
  roots : List.Disjoint (rootKinds d) (rootKinds e)
  singles : List.Disjoint (schemaSingles s d) (schemaSingles s e)

theorem Apart.symm {s : Scope} {d e : Definition} (h : Apart s d e) : Apart s e d where
  schema he := by
    by_contra hd
    rw [h.schema (by simpa using hd)] at he
    cases he
  types t ht u hu := (h.types u hu t ht).symm
  directives t ht u hu := (h.directives u hu t ht).symm
  roots := List.disjoint_symm h.roots
  singles := List.disjoint_symm h.singles

/-- A definition that defines no type and no directive counts as part of the schema as a whole only. -/
theorem apart_of_root {s : Scope} {d e : Definition} (htype : e.type? = none) (hdirective : e.directive? = none)
    (hschema : isSchemaDefinition d = true → isSchemaDefinition e = false)
    (hroots : List.Disjoint (rootKinds d) (rootKinds e))
    (hsingles : List.Disjoint (schemaSingles s d) (schemaSingles s e)) : Apart s d e :=
  ⟨hschema, by simp [htype], by simp [hdirective], hroots, hsingles⟩

/-- A definition that is no part of the schema as a whole counts for its name only. -/
theorem apart_of_name {s : Scope} {d e : Definition} (hschema : isSchemaDefinition e = false)
    (hroots : rootKinds e = []) (hdirectives : schemaDirectives e = [])
    (htypes : ∀ t, d.type? = some t → ∀ u, e.type? = some u → t.name ≠ u.name)
    (hnames : ∀ t, d.directive? = some t → ∀ u, e.directive? = some u → t.name ≠ u.name) : Apart s d e :=
  ⟨fun _ => hschema, htypes, hnames, by simp [hroots], by simp [schemaSingles, hdirectives, singleDirectives]⟩

/-- A scope counts only for which directives may stand once. -/
theorem Apart.of_agrees {s s' : Scope} (hs : s.Agrees s') {d e : Definition} (h : Apart s d e) :
    Apart s' d e where
  schema := h.schema
  types := h.types
  directives := h.directives
  roots := h.roots
  singles := by
    have hsingles (d : Definition) : schemaSingles s' d = schemaSingles s d := by
      simp only [schemaSingles, singleDirectives, hs.directive?]
    rw [hsingles, hsingles]
    exact h.singles

/-! ### One definition after others -/

theorem repeatedDirectives_eq_nil_iff {s : Scope} {earlier ds : List Directive} :
    repeatedDirectives s earlier ds = [] ↔
      (singleDirectives s ds).Nodup ∧ List.Disjoint (singleDirectives s earlier) (singleDirectives s ds) := by
  rw [repeatedDirectives, List.map_eq_nil_iff, repeats_eq_nil_iff]

theorem disjoint_flatMap_left {α β : Type} {f : α → List β} {xs : List α} {ys : List β} :
    List.Disjoint (xs.flatMap f) ys ↔ ∀ x ∈ xs, List.Disjoint (f x) ys := by
  simp only [List.disjoint_left, List.mem_flatMap]
  exact ⟨fun h x hx y hy => h ⟨x, hx, hy⟩, fun h y ⟨x, hx, hy⟩ => h x hx hy⟩

theorem singleDirectives_flatMap (s : Scope) (earlier : List Definition) :
    singleDirectives s (earlier.flatMap schemaDirectives) = earlier.flatMap (schemaSingles s) := by
  induction earlier with
  | nil => rfl
  | cons e es ih => simp [singleDirectives, schemaSingles, ← ih]

/-- What a definition says of the schema as a whole is checked against all earlier definitions. -/
theorem rootFaults_eq_nil_iff {s : Scope} {earlier : List Definition} {d : Definition} :
    rootFaults s earlier d = [] ↔ rootFaults s [] d = [] ∧
      ∀ e ∈ earlier, List.Disjoint (rootKinds e) (rootKinds d) ∧
        List.Disjoint (schemaSingles s e) (schemaSingles s d) := by
  simp only [rootFaults, List.append_eq_nil_iff, List.map_eq_nil_iff, repeats_eq_nil_iff,
    repeatedDirectives_eq_nil_iff, List.flatMap_nil, singleDirectives_flatMap, disjoint_flatMap_left]
  constructor
  · rintro ⟨⟨⟨hroots, hkinds⟩, hsingles, hdirectives⟩, hfaults⟩
    refine ⟨⟨⟨⟨hroots, List.disjoint_nil_left _⟩, hsingles, List.disjoint_nil_left _⟩, hfaults⟩, ?_⟩
    exact fun e he => ⟨hkinds e he, hdirectives e he⟩
  · rintro ⟨⟨⟨⟨hroots, -⟩, hsingles, -⟩, hfaults⟩, happart⟩
    exact ⟨⟨⟨hroots, fun e he => (happart e he).1⟩, hsingles, fun e he => (happart e he).2⟩, hfaults⟩

/-- There are no extensions of types. -/
def NoTypeExtension (ds : List Definition) : Prop := ∀ d ∈ ds, ∀ e, d ≠ .typeExtension e

theorem noTypeExtension_nil : NoTypeExtension [] := by simp [NoTypeExtension]

theorem NoTypeExtension.of_perm {ds ds' : List Definition} (h : NoTypeExtension ds) (hperm : ds'.Perm ds) :
    NoTypeExtension ds' :=
  fun d hd => h d (hperm.mem_iff.mp hd)

theorem partsOf_eq_nil {name : String} {ds : List Definition} (h : NoTypeExtension ds)
    (hnew : ∀ d ∈ ds, ∀ t, d.type? = some t → t.name ≠ name) : partsOf name ds = [] := by
  rw [partsOf, List.filterMap_eq_nil_iff]
  intro d hd
  cases d with
  | type t => simpa using hnew _ hd t rfl
  | typeExtension e => exact absurd rfl (h _ hd e)
  | _ => rfl

/-- No earlier definition defines the name. -/
theorem any_name_eq_false_iff {α : Type} {f : Definition → Option α} {name : α → String} {n : String}
    {ds : List Definition} :
    (ds.filterMap f).any (name · == n) = false ↔ ∀ d ∈ ds, ∀ x, f d = some x → name x ≠ n := by
  simp only [List.any_eq_false, List.mem_filterMap, beq_iff_eq]
  exact ⟨fun h d hd x hx => h x ⟨d, hd, hx⟩, fun h x ⟨d, hd, hx⟩ => h d hd x hx⟩

section

variable {s : Scope} {earlier : List Definition}

theorem definitionFaults_schema_iff (d : SchemaDefinition) :
    definitionFaults s earlier (.schema d) = [] ↔
      definitionFaults s [] (.schema d) = [] ∧ ∀ e ∈ earlier, Apart s e (.schema d) := by
  have hsecond : (if earlier.any isSchemaDefinition then [SchemaFault.secondSchema] else []) = [] ↔
      ∀ e ∈ earlier, isSchemaDefinition e = false := by
    simp
  rw [definitionFaults, definitionFaults, List.append_eq_nil_iff, List.append_eq_nil_iff,
    List.append_eq_nil_iff, List.append_eq_nil_iff, hsecond, rootFaults_eq_nil_iff]
  constructor
  · rintro ⟨⟨hsecond, hroots, happart⟩, htypes⟩
    refine ⟨⟨⟨rfl, hroots⟩, htypes⟩, fun e he => ?_⟩
    exact apart_of_root rfl rfl (fun h => by simp [hsecond e he] at h) (happart e he).1 (happart e he).2
  · rintro ⟨⟨⟨-, hroots⟩, htypes⟩, happart⟩
    refine ⟨⟨fun e he => ?_, hroots, fun e he => ⟨(happart e he).roots, (happart e he).singles⟩⟩, htypes⟩
    exact (happart e he).symm.schema rfl

theorem definitionFaults_schemaExtension_iff (d : SchemaExtension) :
    definitionFaults s earlier (.schemaExtension d) = [] ↔
      definitionFaults s [] (.schemaExtension d) = [] ∧ ∀ e ∈ earlier, Apart s e (.schemaExtension d) := by
  rw [definitionFaults, definitionFaults, List.append_eq_nil_iff, List.append_eq_nil_iff,
    rootFaults_eq_nil_iff]
  constructor
  · rintro ⟨⟨hroots, happart⟩, htypes⟩
    refine ⟨⟨hroots, htypes⟩, fun e he => ?_⟩
    exact apart_of_root rfl rfl (fun _ => rfl) (happart e he).1 (happart e he).2
  · rintro ⟨⟨hroots, htypes⟩, happart⟩
    exact ⟨⟨hroots, fun e he => ⟨(happart e he).roots, (happart e he).singles⟩⟩, htypes⟩

/-- A type breaks no rule if it breaks none by itself and stands apart from those before it. -/
theorem definitionFaults_type_iff (hearlier : NoTypeExtension earlier) (d : TypeDefinition) :
    definitionFaults s earlier (.type d) = [] ↔
      definitionFaults s [] (.type d) = [] ∧ ∀ e ∈ earlier, Apart s e (.type d) := by
  -- without extensions, the type has no parts among definitions of other types
  have halone (hnew : ∀ e ∈ earlier, ∀ t, e.type? = some t → t.name ≠ d.name) :
      definitionFaults s earlier (.type d) = definitionFaults s [] (.type d) := by
    have hany : (earlier.filterMap (·.type?)).any (·.name == d.name) = false :=
      any_name_eq_false_iff.mpr hnew
    have hparts : partsOf d.name earlier = [] := partsOf_eq_nil hearlier hnew
    rw [definitionFaults, definitionFaults, hany, hparts]
    rfl
  constructor
  · intro h
    have hnew : ∀ e ∈ earlier, ∀ t, e.type? = some t → t.name ≠ d.name := by
      rw [← any_name_eq_false_iff]
      by_contra hany
      rw [Bool.not_eq_false] at hany
      rw [definitionFaults, hany] at h
      cases h
    refine ⟨halone hnew ▸ h, fun e he => apart_of_name rfl rfl rfl ?_ (by simp [Definition.directive?])⟩
    rintro t ht _ ⟨⟩
    exact hnew e he t ht
  · rintro ⟨h, happart⟩
    rwa [halone fun e he t ht => (happart e he).types t ht d rfl]

theorem definitionFaults_directive_iff (d : DirectiveDefinition) :
    definitionFaults s earlier (.directive d) = [] ↔
      definitionFaults s [] (.directive d) = [] ∧ ∀ e ∈ earlier, Apart s e (.directive d) := by
  have hsecond : (if (earlier.filterMap (·.directive?)).any (·.name == d.name) then
      [SchemaFault.secondDirective d.name] else []) = [] ↔
        ∀ e ∈ earlier, ∀ t, e.directive? = some t → t.name ≠ d.name := by
    rw [← any_name_eq_false_iff, ite_eq_right_iff, ← Bool.not_eq_true]
    exact ⟨fun h hany => List.cons_ne_nil _ _ (h hany), fun h hany => absurd hany h⟩
  rw [definitionFaults, definitionFaults, List.append_eq_nil_iff, List.append_eq_nil_iff,
    List.append_eq_nil_iff, List.append_eq_nil_iff, hsecond]
  constructor
  · rintro ⟨⟨hnames, hnew⟩, hargs⟩
    refine ⟨⟨⟨hnames, rfl⟩, hargs⟩, fun e he => apart_of_name rfl rfl rfl (by simp [Definition.type?]) ?_⟩
    rintro t ht _ ⟨⟩
    exact hnew e he t ht
  · rintro ⟨⟨⟨hnames, -⟩, hargs⟩, happart⟩
    exact ⟨⟨hnames, fun e he t ht => (happart e he).directives t ht d rfl⟩, hargs⟩

/-- A definition keeps the rules after others if it does so alone and stands apart from them. -/
theorem definitionFaults_eq_nil_iff (hearlier : NoTypeExtension earlier) {d : Definition}
    (hd : ∀ e, d ≠ .typeExtension e) :
    definitionFaults s earlier d = [] ↔
      definitionFaults s [] d = [] ∧ ∀ e ∈ earlier, Apart s e d := by
  have hnone {d : Definition} (hschema : isSchemaDefinition d = false) (hroots : rootKinds d = [])
      (hdirectives : schemaDirectives d = []) (htype : d.type? = none) (hdirective : d.directive? = none)
      (e : Definition) : Apart s e d :=
    apart_of_name hschema hroots hdirectives (by simp [htype]) (by simp [hdirective])
  cases d with
  | operation d => exact ⟨fun h => ⟨h, fun e _ => hnone rfl rfl rfl rfl rfl e⟩, fun h => h.1⟩
  | fragment d => exact ⟨fun h => ⟨h, fun e _ => hnone rfl rfl rfl rfl rfl e⟩, fun h => h.1⟩
  | schema d => exact definitionFaults_schema_iff d
  | type d => exact definitionFaults_type_iff hearlier d
  | directive d => exact definitionFaults_directive_iff d
  | schemaExtension d => exact definitionFaults_schemaExtension_iff d
  | typeExtension d => exact absurd rfl (hd d)

end

/-- No definition of a row breaks a rule if none does by itself and they stand apart. -/
theorem faultsAfter_eq_nil_iff {s : Scope} {earlier ds : List Definition} (hearlier : NoTypeExtension earlier)
    (hds : NoTypeExtension ds) :
    faultsAfter s earlier ds = [] ↔ (∀ d ∈ ds, definitionFaults s [] d = []) ∧ ds.Pairwise (Apart s) ∧
      ∀ e ∈ earlier, ∀ d ∈ ds, Apart s e d := by
  induction ds generalizing earlier with
  | nil => simp [faultsAfter]
  | cons d ds ih =>
    obtain ⟨hd, hds⟩ := List.forall_mem_cons.mp hds
    have hnext : NoTypeExtension (earlier ++ [d]) := by
      intro e he
      rcases List.mem_append.mp he with he | he
      · exact hearlier e he
      · rwa [List.mem_singleton.mp he]
    rw [faultsAfter, List.append_eq_nil_iff, definitionFaults_eq_nil_iff hearlier hd, ih hnext hds,
      List.pairwise_cons]
    simp only [List.forall_mem_cons, List.forall_mem_append]
    constructor
    · rintro ⟨⟨hfirst, hbefore⟩, hrest, hpairs, hearlier, hafter, -⟩
      exact ⟨⟨hfirst, hrest⟩, ⟨hafter, hpairs⟩, fun e he => ⟨hbefore e he, hearlier e he⟩⟩
    · rintro ⟨⟨hfirst, hrest⟩, ⟨hafter, hpairs⟩, hearlier⟩
      exact ⟨⟨hfirst, fun e he => (hearlier e he).1⟩, hrest, hpairs, fun e he => (hearlier e he).2, hafter,
        List.forall_mem_nil _⟩

/-! ### Scopes in another order -/

section

variable {s : Scope} {ds : List Definition} (h : ds.Pairwise (Apart s))
include h

theorem nodup_typeNames_of_apart : ((ds.filterMap (·.type?)).map (·.name)).Nodup := by
  rw [List.Nodup, List.pairwise_map, List.pairwise_filterMap]
  exact h.imp fun happart t ht u hu => happart.types t ht u hu

theorem nodup_directiveNames_of_apart : ((ds.filterMap (·.directive?)).map (·.name)).Nodup := by
  rw [List.Nodup, List.pairwise_map, List.pairwise_filterMap]
  exact h.imp fun happart t ht u hu => happart.directives t ht u hu

theorem agrees_of_perm {ds' : List Definition} (hperm : ds'.Perm ds) :
    (Scope.ofDefinitions ds).Agrees (.ofDefinitions ds') := by
  have hdirectives := (ds.filterMap (·.directive?)).reverse_perm.map (·.name)
  have htypes := (ds.filterMap (·.type?)).reverse_perm.map (·.name)
  refine ⟨fun n => ?_, fun n => ?_⟩
  · have hfind := find?_eq_of_perm (hdirectives.nodup_iff.mpr (nodup_directiveNames_of_apart h))
      (((List.reverse_perm _).trans (hperm.filterMap (·.directive?))).trans (List.reverse_perm _).symm) n
    simp only [Scope.directive?, Scope.ofDefinitions, hfind]
  · have hfind := find?_eq_of_perm (htypes.nodup_iff.mpr (nodup_typeNames_of_apart h))
      (((List.reverse_perm _).trans (hperm.filterMap (·.type?))).trans (List.reverse_perm _).symm) n
    simp only [Scope.type?, Scope.ofDefinitions, hfind]

end

end Rules

/-- Definitions keep the rules if each of them does by itself and each two stand apart. -/
theorem schemaFaults_eq_nil_iff {ds : List Definition} (h : Rules.NoTypeExtension ds) :
    schemaFaults ds = [] ↔ (∀ d ∈ ds, Rules.definitionFaults (.ofDefinitions ds) [] d = []) ∧
      ds.Pairwise (Rules.Apart (.ofDefinitions ds)) := by
  rw [schemaFaults, Rules.faultsAfter_eq_nil_iff Rules.noTypeExtension_nil h]
  simp

/-- Definitions keep the rules in any order, if none of them extends a type. -/
theorem schemaFaults_of_perm {ds ds' : List Definition} (hds : Rules.NoTypeExtension ds)
    (hperm : ds'.Perm ds) (h : schemaFaults ds = []) : schemaFaults ds' = [] := by
  obtain ⟨halone, happart⟩ := (schemaFaults_eq_nil_iff hds).mp h
  have hagrees := Rules.agrees_of_perm happart hperm
  refine (schemaFaults_eq_nil_iff (hds.of_perm hperm)).mpr ⟨?_, ?_⟩
  · intro d hd
    rw [Rules.definitionFaults_of_agrees hagrees]
    exact halone d (hperm.mem_iff.mp hd)
  · refine (hperm.pairwise_iff Rules.Apart.symm).mpr (happart.imp ?_)
    exact Rules.Apart.of_agrees hagrees

end GraphDecl
