import GraphDecl.Proofs.Projection.Levels
import GraphDecl.Proofs.Schema.References
import GraphDecl.Proofs.TypeScript.Objects

/-!
What the declared types of a result mean. Read as TypeScript, with the members of each namespace in scope
beside it, the type of every result field admits the values that the selected field can have.
-/

namespace GraphDecl

open TypeScript

/-! ### Values of selections -/

/-- Whether the values of a type are objects. -/
def Schema.hasObjects (s : Schema) (type : String) : Bool :=
  (s.find? type).any fun t => t.content.kind ∈ [.object, .interface, .union]

mutual

/-- The values that a selected field of a type with the fields `field?` can have. Inside the layers of its
type they are objects that hold all that is selected below, or values of the leaf's atom. -/
def Selection.Admits (s : Schema) (atoms : String → Json → Prop) (field? : String → Option FieldType) :
    Selection → Json → Prop
  | .field _ name _ _ below, v =>
    if name = typenameField then atoms "string" v
    else ∃ type, field? name = some type ∧ type.Admits (fun w =>
      if s.hasObjects type.name then
        ∃ entries, w = .object entries ∧ HoldBelow s atoms (s.outputField? type.name) below entries
      else atoms (typeName type.name) w) true v
  | .spread .., _ | .inline .., _ => False

def HoldBelow (s : Schema) (atoms : String → Json → Prop) (field? : String → Option FieldType) :
    Option (List Selection) → List (String × Json) → Prop
  | none, _ => True
  | some selections, entries => HoldAll s atoms field? selections entries

def HoldAll (s : Schema) (atoms : String → Json → Prop) (field? : String → Option FieldType) :
    List Selection → List (String × Json) → Prop
  | [], _ => True
  | x :: xs, entries =>
    (∃ v, entries.lookup x.resultName = some v ∧ x.Admits s atoms field? v) ∧
      HoldAll s atoms field? xs entries

end

/-! ### Values of result fields -/

namespace ResultField

def text : ResultField → String
  | leaf _ type => type.text
  | composite _ members type _ => Rendering.compositeText members type

/-- The values that the text of a field admits in a scope. -/
def AdmitsIn (atoms : String → Json → Prop) (scope : String → String → Json → Prop) (f : ResultField)
    (v : Json) : Prop :=
  ∃ t, Reads .type (symbols f.text) t ∧ t.Admits atoms scope v

mutual

/-- The values of the members of the namespace that a field has. -/
def MemberAdmits (atoms : String → Json → Prop) : ResultField → String → Json → Prop
  | leaf .., _, _ => False
  | composite _ _ _ fields, child, v =>
    ∃ f ∈ fields, f.name = child ∧ f.AdmitsIn atoms (ScopeAdmits atoms fields) v

/-- The values of the members of namespaces, where the namespaces of these fields are in scope. -/
def ScopeAdmits (atoms : String → Json → Prop) : List ResultField → String → String → Json → Prop
  | [], _, _, _ => False
  | f :: fs, space, child, v =>
    (f.name = space ∧ MemberAdmits atoms f child v) ∨ ScopeAdmits atoms fs space child v

end

end ResultField

/-! ### Plain selections -/

/-- A field without directives, with selections below it where its values are objects and nowhere else. The
name of its type, if it is a leaf's, is not the word `null`. -/
def Schema.PlainOn (s : Schema) (field? : String → Option FieldType) : Selection → Prop
  | .field _ name _ dirs below => dirs = [] ∧ (name = typenameField → below = none) ∧
    ∀ type, name ≠ typenameField → field? name = some type →
      (below.isSome = true ↔ s.hasObjects type.name = true) ∧ (below = none → type.name ≠ "null")
  | .spread .. | .inline .. => False

/-- Plain fields with different names for their results. -/
structure Schema.PlainLevel (s : Schema) (field? : String → Option FieldType) (xs : List Selection) :
    Prop where
  fields : ∀ x ∈ xs, s.PlainOn field? x
  distinct : (xs.map (·.resultName)).Nodup

/-- All levels of a selection are plain. -/
def Schema.Plain (s : Schema) (field? : String → Option FieldType) (xs : List Selection) : Prop :=
  ∀ pos field?' ys, s.selectedAt? field? xs pos = some (field?', ys) → s.PlainLevel field?' ys

variable {s : Schema} {atoms : String → Json → Prop} {field? : String → Option FieldType}

theorem Schema.Plain.level {xs : List Selection} (h : s.Plain field? xs) : s.PlainLevel field? xs :=
  h [] field? xs rfl

theorem Schema.Plain.enter {xs : List Selection} (h : s.Plain field? xs) {x : Selection} (hx : x ∈ xs)
    {type : FieldType} {selections : List Selection}
    (henter : Schema.enter? field? x = some (type, selections)) :
    s.Plain (s.outputField? type.name) selections := by
  intro pos field?' ys hys
  obtain ⟨i, hi⟩ := List.mem_iff_getElem?.mp hx
  exact h (i :: pos) field?' ys (by simp [Schema.selectedAt?, hi, henter, hys])

theorem Schema.plain_of_level {xs : List Selection} (hlevel : s.PlainLevel field? xs)
    (hinside : ∀ x ∈ xs, ∀ type selections, Schema.enter? field? x = some (type, selections) →
      s.Plain (s.outputField? type.name) selections) : s.Plain field? xs := by
  intro pos field?' ys hys
  cases pos with
  | nil =>
    cases hys
    exact hlevel
  | cons i is =>
    obtain ⟨x, hx, hys⟩ := Option.bind_eq_some_iff.mp hys
    obtain ⟨⟨type, selections⟩, henter, hys⟩ := Option.bind_eq_some_iff.mp hys
    exact hinside x (List.mem_of_getElem? hx) type selections henter is field?' ys hys

/-! ### Scopes -/

theorem scopeAdmits_iff {fields : List ResultField} {space child : String} {v : Json} :
    ResultField.ScopeAdmits atoms fields space child v ↔
      ∃ f ∈ fields, f.name = space ∧ f.MemberAdmits atoms child v := by
  induction fields with
  | nil => simp [ResultField.ScopeAdmits]
  | cons f fs ih => simp [ResultField.ScopeAdmits, ih]

/-- Where the names are different, only the field that belongs to a selection has its name. -/
theorem exists_named_iff {P : ResultField → Prop} {Q : Selection → Prop} {xs : List Selection}
    {fs : List ResultField}
    (h : List.Forall₂ (fun x f => f.name = x.resultName ∧ (P f ↔ Q x)) xs fs)
    (hdistinct : (xs.map (·.resultName)).Nodup) {x : Selection} (hx : x ∈ xs) :
    (∃ f ∈ fs, f.name = x.resultName ∧ P f) ↔ Q x := by
  induction h with
  | nil => cases hx
  | @cons y f ys fs hyf hrest ih =>
    obtain ⟨hnew, hdistinct⟩ := List.nodup_cons.mp hdistinct
    have hnames : fs.map (·.name) = ys.map (·.resultName) :=
      map_eq_map_of_forall₂ (hrest.imp fun _ _ h => h.1)
    rcases List.mem_cons.mp hx with rfl | hx
    · constructor
      · rintro ⟨g, hg, hname, hP⟩
        rcases List.mem_cons.mp hg with rfl | hg
        · exact hyf.2.mp hP
        · have hmem : x.resultName ∈ fs.map (·.name) := hname ▸ List.mem_map_of_mem hg
          rw [hnames] at hmem
          exact absurd hmem hnew
      · intro hQ
        exact ⟨f, List.mem_cons_self, hyf.1, hyf.2.mpr hQ⟩
    · rw [← ih hdistinct hx]
      constructor
      · rintro ⟨g, hg, hname, hP⟩
        rcases List.mem_cons.mp hg with rfl | hg
        · have hsame : y.resultName = x.resultName := hyf.1.symm.trans hname
          have hmem : y.resultName ∈ ys.map (·.resultName) := hsame ▸ List.mem_map_of_mem hx
          exact absurd hmem hnew
        · exact ⟨g, hg, hname, hP⟩
      · rintro ⟨g, hg, hname, hP⟩
        exact ⟨g, List.mem_cons_of_mem _ hg, hname, hP⟩

/-- In a scope that has the namespace of the result field, the text of its type reads as a type with the
values of the selected field. -/
def Means (s : Schema) (atoms : String → Json → Prop) (field? : String → Option FieldType) (x : Selection)
    (f : ResultField) : Prop :=
  f.name = x.resultName ∧ ∀ scope,
    (∀ child v, scope f.name child v ↔ f.MemberAdmits atoms child v) →
    ∃ t, Reads .type (symbols f.text) t ∧ ∀ v, t.Admits atoms scope v ↔ x.Admits s atoms field? v

/-- At a level with different names, the scope of the level has the namespace of each field. -/
theorem Means.admits_iff {xs : List Selection} {fs : List ResultField}
    (h : List.Forall₂ (Means s atoms field?) xs fs) (hdistinct : (xs.map (·.resultName)).Nodup) :
    List.Forall₂ (fun x f => f.name = x.resultName ∧ ∃ t, Reads .type (symbols f.text) t ∧
      ∀ v, t.Admits atoms (ResultField.ScopeAdmits atoms fs) v ↔ x.Admits s atoms field? v) xs fs := by
  have hnames : fs.map (·.name) = xs.map (·.resultName) := map_eq_map_of_forall₂ (h.imp fun _ _ h => h.1)
  rw [← hnames] at hdistinct
  rw [List.forall₂_iff_zip] at h ⊢
  refine ⟨h.1, ?_⟩
  intro x f hxf
  obtain ⟨hname, hmeans⟩ := h.2 hxf
  refine ⟨hname, hmeans _ ?_⟩
  intro child v
  have hf := (List.of_mem_zip hxf).2
  rw [scopeAdmits_iff]
  constructor
  · rintro ⟨g, hg, hsame, hadmits⟩
    rwa [← List.inj_on_of_nodup_map hdistinct hg hf hsame]
  · intro hadmits
    exact ⟨f, hf, rfl, hadmits⟩

/-- An object holds all that is selected if each selection has a value that it admits. -/
theorem holdAll_iff {xs : List Selection} {entries : List (String × Json)} :
    HoldAll s atoms field? xs entries ↔
      ∀ x ∈ xs, ∃ v, entries.lookup x.resultName = some v ∧ x.Admits s atoms field? v := by
  induction xs with
  | nil => simp [HoldAll]
  | cons x xs ih => simp [HoldAll, ih]

theorem FieldType.admits_congr {bottom bottom' : Json → Prop} (h : ∀ v, bottom v ↔ bottom' v)
    (nullable : Bool) (type : FieldType) (v : Json) :
    type.Admits bottom nullable v ↔ type.Admits bottom' nullable v := by
  have hsame : bottom = bottom' := funext fun v => propext (h v)
  rw [hsame]

/-- An object type that points into the namespace of a field admits the objects that hold all that is
selected below the field. -/
theorem admits_pointerTree_iff {space : String} {scope : String → String → Json → Prop}
    {xs : List Selection} {fs : List ResultField} (h : List.Forall₂ (Means s atoms field?) xs fs)
    (hdistinct : (xs.map (·.resultName)).Nodup)
    (hscope : ∀ child v, scope space child v ↔
      ∃ f ∈ fs, f.name = child ∧ f.AdmitsIn atoms (ResultField.ScopeAdmits atoms fs) v)
    (v : Json) :
    (pointerTree space (xs.map (·.resultName))).Admits atoms scope v ↔
      ∃ entries, v = .object entries ∧ HoldAll s atoms field? xs entries := by
  have hmember : ∀ x ∈ xs, ∀ w, scope space x.resultName w ↔ x.Admits s atoms field? w := by
    intro x hx w
    have hpairs : List.Forall₂ (fun y f => f.name = y.resultName ∧
        (f.AdmitsIn atoms (ResultField.ScopeAdmits atoms fs) w ↔ y.Admits s atoms field? w)) xs fs := by
      refine (Means.admits_iff h hdistinct).imp ?_
      rintro y f ⟨hname, t, ht, hvalues⟩
      refine ⟨hname, ?_⟩
      rw [← hvalues]
      exact ⟨fun ⟨u, hu, hw⟩ => ht.unique hu ▸ hw, fun hw => ⟨t, ht, hw⟩⟩
    rw [hscope]
    exact exists_named_iff hpairs hdistinct hx
  rw [pointerTree, TypeTree.Admits]
  simp only [TypeTree.admitsAll_iff, holdAll_iff, List.map_map, List.forall_mem_map, Function.comp_apply,
    TypeTree.Admits]
  constructor
  · rintro ⟨entries, rfl, hentries⟩
    refine ⟨entries, rfl, ?_⟩
    intro x hx
    obtain ⟨w, hw, hadmits⟩ := hentries x hx
    exact ⟨w, hw, (hmember x hx w).mp hadmits⟩
  · rintro ⟨entries, rfl, hentries⟩
    refine ⟨entries, rfl, ?_⟩
    intro x hx
    obtain ⟨w, hw, hadmits⟩ := hentries x hx
    exact ⟨w, hw, (hmember x hx w).mpr hadmits⟩

theorem isName_resultName {x : Selection} (hplain : s.PlainOn field? x) (hnamed : x.Named) :
    isName x.resultName = true := by
  cases x with
  | field label name args dirs below =>
    obtain ⟨hlabel, hname, -⟩ := hnamed
    cases label with
    | none => exact hname
    | some l => exact hlabel l rfl
  | spread fragment dirs => cases hplain
  | inline condition dirs selections => cases hplain

/-- A field other than `__typename` admits what its type admits. -/
theorem admits_field_iff {name : String} (hne : name ≠ typenameField) {type : FieldType}
    (htype : field? name = some type) (label : Option String) (args : List Argument)
    (dirs : List Directive) (below : Option (List Selection)) (v : Json) :
    (Selection.field label name args dirs below).Admits s atoms field? v ↔ type.Admits (fun w =>
      if s.hasObjects type.name then
        ∃ entries, w = .object entries ∧ HoldBelow s atoms (s.outputField? type.name) below entries
      else atoms (typeName type.name) w) true v := by
  rw [Selection.Admits, if_neg hne]
  constructor
  · rintro ⟨type', htype', hv⟩
    cases htype.symm.trans htype'
    exact hv
  · intro hv
    exact ⟨type, htype, hv⟩

theorem isName_of_anyField? (hs : s.Named) {parent name : String} {type : FieldType}
    (h : s.anyField? parent name = some type) : isName type.name = true := by
  obtain ⟨field, hfound, rfl⟩ := Option.map_eq_some_iff.mp h
  obtain ⟨t, ht, hdeclared⟩ := Option.bind_eq_some_iff.mp hfound
  exact hs t (List.mem_of_find?_eq_some ht) _ (mem_references_of_field? hdeclared)

theorem isName_of_outputField? (hs : s.Named) {parent name : String} {type : FieldType}
    (h : s.outputField? parent name = some type) : isName type.name = true :=
  isName_of_anyField? hs (Schema.anyField?_of_outputField? h)

/-! ### Results -/

section

variable {label : Option String} {name : String} {args : List Argument} {dirs : List Directive}
  {type : FieldType}

theorem means_typename (below : Option (List Selection)) :
    Means s atoms field? (.field label typenameField args dirs below)
      (.leaf (label.getD typenameField) ⟨"string", []⟩) := by
  refine ⟨rfl, ?_⟩
  intro scope _
  have hstring : Reads .operand (symbols "string") (.name "string") :=
    reads_typeName (n := "String") (by decide) (by decide)
  refine ⟨_, .operand hstring, ?_⟩
  intro v
  rw [Selection.Admits, if_pos rfl]
  rfl

/-- A leaf is declared as a type that admits the values of its field. -/
theorem means_leaf (hne : name ≠ typenameField) (htype : field? name = some type)
    (hname : isName type.name = true) (hnull : type.name ≠ "null") (hobjects : s.hasObjects type.name = false) :
    Means s atoms field? (.field label name args dirs none)
      (.leaf (label.getD name) (type.expression true)) := by
  refine ⟨rfl, ?_⟩
  intro scope _
  refine ⟨type.tree (.name (typeName type.name)) true, ?_, ?_⟩
  · rw [ResultField.text, FieldType.text_expression]
    exact (reads_wrap (reads_typeName hname hnull) true type).1
  · intro v
    rw [admits_tree, admits_field_iff hne htype]
    refine FieldType.admits_congr ?_ true type v
    intro w
    rw [if_neg (by simp [hobjects]), TypeTree.Admits]

/-- A composite field is declared as a type that admits its objects, if all below it is. -/
theorem means_composite {selections : List Selection} {fields : List ResultField} (hne : name ≠ typenameField)
    (htype : field? name = some type) (hobjects : s.hasObjects type.name = true)
    (hspace : isName (label.getD name) = true) (hnames : ∀ x ∈ selections, isName x.resultName = true)
    (hdistinct : (selections.map (·.resultName)).Nodup)
    (h : List.Forall₂ (Means s atoms (s.outputField? type.name)) selections fields) :
    Means s atoms field? (.field label name args dirs (some selections))
      (.composite (label.getD name) (flatMembers (label.getD name) (fields.map (·.name))) type fields) := by
  refine ⟨rfl, ?_⟩
  intro scope hscope
  have hmembers : fields.map (·.name) = selections.map (·.resultName) :=
    map_eq_map_of_forall₂ (h.imp fun _ _ h => h.1)
  refine ⟨type.tree (pointerTree (label.getD name) (selections.map (·.resultName))) true, ?_, ?_⟩
  · rw [ResultField.text, hmembers]
    exact reads_compositeText hspace (List.forall_mem_map.mpr hnames) type
  · intro v
    rw [admits_tree, admits_field_iff hne htype]
    refine FieldType.admits_congr ?_ true type v
    intro w
    rw [if_pos hobjects]
    exact admits_pointerTree_iff h hdistinct hscope w

end

/-- What the results of a level mean, if those below mean what they should. -/
theorem means_of_resultsOn (hs : s.Named) {xs : List Selection} (hnamed : Selection.AllNamed xs)
    (hfields : ∀ name type, field? name = some type → isName type.name = true)
    (hplain : ∀ x ∈ xs, s.PlainOn field? x)
    (hinside : ∀ x ∈ xs, ∀ type selections, Schema.enter? field? x = some (type, selections) →
      s.Plain (s.outputField? type.name) selections)
    {fields : List ResultField} (h : s.resultsOn field? xs = some fields) :
    List.Forall₂ (Means s atoms field?) xs fields := by
  -- the scope stays open, since the scope of a level is made from all of its fields
  induction xs using Selection.listInduction generalizing field? fields with
  | nil =>
    cases h
    exact .nil
  | field label name args dirs below xs ihbelow ihxs =>
    obtain ⟨f, fs, hf, hfs, rfl⟩ := Schema.resultsOn_cons_eq_some_iff.mp h
    have hrest := ihxs hnamed.2 hfields (fun x hx => hplain x (List.mem_cons_of_mem _ hx))
      (fun x hx => hinside x (List.mem_cons_of_mem _ hx)) hfs
    refine .cons ?_ hrest
    have hresult := isName_resultName (hplain _ List.mem_cons_self) hnamed.1
    obtain ⟨-, -, hkinds⟩ := hplain _ List.mem_cons_self
    cases Schema.hasResult_of_resultOn hf with
    | typename => exact means_typename below
    | @leaf _ _ _ _ type hne htype =>
      obtain ⟨hobjects, hnull⟩ := hkinds type hne htype
      exact means_leaf hne htype (hfields name type htype) (hnull rfl) (by simpa using hobjects)
    | @composite _ _ _ _ type selections inside hne htype hinner =>
      obtain ⟨hobjects, -⟩ := hkinds type hne htype
      have hbelow : s.Plain (s.outputField? type.name) selections :=
        hinside _ List.mem_cons_self type selections
          (by rw [Schema.enter?, if_neg hne, htype, Option.map_some])
      have hnamedBelow : Selection.AllNamed selections := hnamed.1.2.2
      have hmeans := ihbelow selections rfl hnamedBelow (fun _ _ h => isName_of_outputField? hs h)
        hbelow.level.fields (fun x hx type ys => hbelow.enter hx) hinner
      refine means_composite hne htype (hobjects.mp rfl) hresult ?_ hbelow.level.distinct hmeans
      intro x hx
      exact isName_resultName (hbelow.level.fields x hx) (Selection.allNamed_iff.mp hnamedBelow x hx)
  | spread fragment dirs xs _ => cases hplain _ List.mem_cons_self
  | inline condition dirs selections xs _ _ => cases hplain _ List.mem_cons_self

theorem exists_field_of_enter? {x : Selection} {type : FieldType} {selections : List Selection}
    (h : Schema.enter? field? x = some (type, selections)) :
    ∃ label name args dirs, x = .field label name args dirs (some selections) ∧
      field? name = some type := by
  unfold Schema.enter? at h
  split at h
  · split at h
    · cases h
    · obtain ⟨u, hu, h⟩ := Option.map_eq_some_iff.mp h
      cases h
      exact ⟨_, _, _, _, rfl, hu⟩
  · cases h

/-- What holds of a selection as a whole holds at all of its levels. -/
theorem plain_of_selectedAt? (hs : s.Named) (pos : List Nat) {xs ys : List Selection}
    {field?' : String → Option FieldType} (hnamed : Selection.AllNamed xs)
    (hfields : ∀ name type, field? name = some type → isName type.name = true)
    (hplain : s.Plain field? xs) (h : s.selectedAt? field? xs pos = some (field?', ys)) :
    Selection.AllNamed ys ∧ (∀ name type, field?' name = some type → isName type.name = true) ∧
      s.Plain field?' ys := by
  induction pos generalizing field? xs with
  | nil =>
    cases h
    exact ⟨hnamed, hfields, hplain⟩
  | cons i is ih =>
    obtain ⟨x, hx, h⟩ := Option.bind_eq_some_iff.mp h
    obtain ⟨⟨type, selections⟩, henter, hrest⟩ := Option.bind_eq_some_iff.mp h
    have hmem := List.mem_of_getElem? hx
    obtain ⟨label, name, args, dirs, rfl, -⟩ := exists_field_of_enter? henter
    exact ih (Selection.allNamed_iff.mp hnamed _ hmem).2.2 (fun _ _ h => isName_of_outputField? hs h)
      (hplain.enter hmem henter) hrest

/-- The types that are declared for a result mean the values that the selection can have: at every level,
the text of a field's type has one reading, and with the namespaces of the level in scope it admits the
values of the selected field, and no others. -/
theorem project_means {root : String} (hs : s.Named) {xs : List Selection}
    (hnamed : Selection.AllNamed xs) (hplain : s.Plain (s.anyField? root) xs) {fields : List ResultField}
    (h : project s root "" xs = .ok fields) (atoms : String → Json → Prop) {pos : List Nat}
    {level : List ResultField} (hlevel : ResultField.levelAt? fields pos = some level) :
    ∃ field? ys, s.selectedAt? (s.anyField? root) xs pos = some (field?, ys) ∧
      List.Forall₂ (fun x f => f.name = x.resultName ∧
        ∃ t, Reads .type (symbols f.text) t ∧ (∀ u, Reads .type (symbols f.text) u → u = t) ∧
          ∀ v, t.Admits atoms (ResultField.ScopeAdmits atoms level) v ↔ x.Admits s atoms field? v)
        ys level := by
  have hresults := Schema.resultsOn_of_project hnamed .start h
  obtain ⟨field?, ys, hys, hlevel⟩ := Schema.selectedAt?_of_levelAt? pos hresults hlevel
  obtain ⟨hnamed, hfields, hplain⟩ :=
    plain_of_selectedAt? hs pos hnamed (fun _ _ h => isName_of_anyField? hs h) hplain hys
  have hmeans : List.Forall₂ (Means s atoms field?) ys level :=
    means_of_resultsOn hs hnamed hfields hplain.level.fields (fun x hx type ys => hplain.enter hx) hlevel
  refine ⟨field?, ys, hys, (Means.admits_iff hmeans hplain.level.distinct).imp ?_⟩
  rintro x f ⟨hname, t, ht, hvalues⟩
  exact ⟨hname, t, ht, fun u hu => hu.unique ht, hvalues⟩

/-- `{ latest: post { tags by: authors { __typename } } }`, where every tag is new: at the level below `latest`,
the type of `tags` admits an array with a tag and `null`, and not `null` itself. -/
theorem project_means_on_blog :
    let post := [Selection.field none "tags" [] [] none,
      .field (some "by") "authors" [] [] (some [.field none typenameField [] [] none])]
    let query := [Selection.field (some "latest") "post" [] [] (some post)]
    let atoms := fun n v => n = "Tag" ∧ v = Json.string "NEW"
    Schema.blog.Named ∧ Selection.AllNamed query ∧
      Schema.blog.Plain (Schema.blog.anyField? "Query") query ∧
      ∃ fields level, project Schema.blog "Query" "" query = .ok fields ∧
        ResultField.levelAt? fields [0] = some level ∧
        level.map (·.text) = ["(Tag | null)[]", "\x7b __typename: by.__typename; \x7d[] | null"] ∧
        ∃ t, Reads .type (symbols "(Tag | null)[]") t ∧
          t.Admits atoms (ResultField.ScopeAdmits atoms level) (.array [.string "NEW", .null]) ∧
          ¬ t.Admits atoms (ResultField.ScopeAdmits atoms level) .null := by
  intro post query atoms
  have hs : Schema.blog.Named := by
    unfold Schema.Named
    decide +kernel
  have hnamed : Selection.AllNamed query := by
    simp only [query, post, Selection.AllNamed, Selection.Named, Selection.NamedBelow]
    decide
  have htags : Schema.blog.outputField? "Post" "tags" = some (.nonNull (.list (.named "Tag"))) := by
    decide +kernel
  have hauthors : Schema.blog.outputField? "Post" "authors" = some (.list (.nonNull (.named "Author"))) := by
    decide +kernel
  have hpost : Schema.blog.anyField? "Query" "post" = some (.named "Post") := by
    decide +kernel
  have hobjects : Schema.blog.hasObjects "Post" = true ∧ Schema.blog.hasObjects "Author" = true ∧
      Schema.blog.hasObjects "Tag" = false := by
    decide +kernel
  have hplain : Schema.blog.Plain (Schema.blog.anyField? "Query") query := by
    refine Schema.plain_of_level ⟨?_, by simp [query]⟩ ?_
    · simp [query, Schema.PlainOn, hpost, FieldType.name, hobjects, typenameField]
    simp only [query, List.mem_singleton, forall_eq, Schema.enter?, hpost]
    rintro type selections ⟨⟩
    refine Schema.plain_of_level ⟨?_, by simp [post, Selection.resultName]⟩ ?_
    · simp [post, Schema.PlainOn, FieldType.name, hobjects, htags, hauthors, typenameField]
    simp only [post, List.mem_cons, List.not_mem_nil, or_false, forall_eq_or_imp, forall_eq, Schema.enter?,
      FieldType.name, hauthors]
    refine ⟨by simp, ?_⟩
    rintro type selections ⟨⟩
    refine Schema.plain_of_level ⟨?_, by simp⟩ ?_
    · simp [Schema.PlainOn]
    · simp [Schema.enter?]
  have hrun : ((project Schema.blog "Query" "" query).toOption.bind fun fields =>
      (ResultField.levelAt? fields [0]).map fun level => level.map (·.text)) =
        some ["(Tag | null)[]", "\x7b __typename: by.__typename; \x7d[] | null"] := by
    decide +kernel
  obtain ⟨fields, hfields, hrun⟩ := Option.bind_eq_some_iff.mp hrun
  obtain ⟨level, hlevel, htexts⟩ := Option.map_eq_some_iff.mp hrun
  rw [toOption_eq_some_iff] at hfields
  refine ⟨hs, hnamed, hplain, fields, level, hfields, hlevel, htexts, ?_⟩
  obtain ⟨field?, ys, hys, hmeans⟩ := project_means hs hnamed hplain hfields atoms hlevel
  have hselected : Schema.blog.selectedAt? (Schema.blog.anyField? "Query") query [0] =
      some (Schema.blog.outputField? "Post", post) := by
    simp [Schema.selectedAt?, query, Schema.enter?, hpost, FieldType.name, typenameField]
  cases hselected.symm.trans hys
  obtain ⟨f, fs, ⟨-, t, ht, -, hvalues⟩, -, rfl⟩ := List.forall₂_cons_left_iff.mp hmeans
  have htext : f.text = "(Tag | null)[]" := List.head_eq_of_cons_eq htexts
  rw [htext] at ht
  have hvalues := fun v => (hvalues v).trans (admits_field_iff (by decide) htags none [] [] none v)
  refine ⟨t, ht, ?_, ?_⟩
  · have htag : typeName "Tag" = "Tag" := by decide
    rw [hvalues]
    simp [FieldType.Admits, FieldType.name, hobjects, atoms, htag]
  · rw [hvalues]
    simp [FieldType.Admits]

end GraphDecl
