import GraphDecl.Proofs.Projection.Direct

/-!
What a dotted path leads to. Its pieces between the dots have to name fields one below the other, and it leads to
the last of them; a path that is put together from two leads where the second one leads from the end of the
first.
-/

namespace GraphDecl

/-! ### Declared fields -/

def TypeContent.fieldTable : TypeContent → List (String × AnyField)
  | object fields | interface fields => fields.map fun f => (f.name, .output f)
  | inputObject fields => fields.map fun f => (f.name, .input f)
  | _ => []

theorem lookup_map {α β : Type} (key : α → String) (value : α → β) (name : String) (xs : List α) :
    (xs.map fun x => (key x, value x)).lookup name = (xs.find? (key · == name)).map value := by
  induction xs with
  | nil => rfl
  | cons x xs ih =>
    rw [List.map_cons, List.lookup_cons, List.find?_cons, ih, BEq.comm]
    cases key x == name <;> rfl

theorem TypeContent.lookup_fieldTable (content : TypeContent) (name : String) :
    content.fieldTable.lookup name = content.field? name := by
  cases content with
  | object fields => exact lookup_map _ _ name fields
  | interface fields => exact lookup_map _ _ name fields
  | inputObject fields => exact lookup_map _ _ name fields
  | scalar => rfl
  | union members => rfl
  | enum values => rfl

namespace Schema

/-- The type of this name has this field under this name. -/
def DeclaresField (s : Schema) (parent name : String) (field : AnyField) : Prop :=
  ∃ t, s.find? parent = some t ∧ t.content.fieldTable.lookup name = some field

/-- A type declares the fields that are found in it. -/
theorem declaresField_iff {s : Schema} {parent name : String} {field : AnyField} :
    s.DeclaresField parent name field ↔ s.findField? parent name = some field := by
  simp [DeclaresField, findField?, TypeContent.lookup_fieldTable, Option.bind_eq_some_iff]

/-! ### Chains of fields -/

/-- The names are those of fields one below the other. The first one is a field of `parent`. In front of the
last one, what is left of the type of a field without its list and non-null layers is an object or interface,
and the next name is one of its fields. `last` is the last field as it is declared, with all layers of its type. -/
inductive Chain (s : Schema) : (parent : String) → (names : List String) → (last : AnyField) → Prop
  | field {parent name : String} {field : AnyField} (h : s.DeclaresField parent name field) :
      Chain s parent [name] field
  | into {parent name : String} {field last : AnyField} {t : NamedType} {names : List String}
      (h : s.DeclaresField parent name field) (ht : s.find? field.type.name = some t)
      (hcomposite : t.content.isComposite = true) (hrest : Chain s field.type.name names last) :
      Chain s parent (name :: names) last

variable {s : Schema}

/-- Going down from a field is going down from the object or interface that it leads into. -/
theorem descend?_eq_fieldAlong? {start : AnyField} {t : NamedType} (ht : s.find? start.type.name = some t)
    (hcomposite : t.content.isComposite = true) {names : List String} (hne : names ≠ []) :
    s.descend? start names = s.fieldAlong? start.type.name names := by
  cases names with
  | nil => exact absurd rfl hne
  | cons name names => rw [descend?, fieldAlong?, findOutputField?_eq_findField? ht hcomposite]

theorem exists_composite_of_findOutputField? {parent name : String} {field : AnyField}
    (h : s.findOutputField? parent name = some field) :
    ∃ t, s.find? parent = some t ∧ t.content.isComposite = true := by
  obtain ⟨t, ht, h⟩ := Option.bind_eq_some_iff.mp h
  split at h
  · next hcomposite => exact ⟨t, ht, hcomposite⟩
  · cases h

theorem Chain.fieldAlong? {parent : String} {names : List String} {last : AnyField}
    (h : s.Chain parent names last) : s.fieldAlong? parent names = some last := by
  induction h with
  | field h => simp [Schema.fieldAlong?, descend?, declaresField_iff.mp h]
  | @into parent name field last t names h ht hcomposite hrest ih =>
    have hne : names ≠ [] := by
      rintro rfl
      cases hrest
    rw [Schema.fieldAlong?, declaresField_iff.mp h, Option.bind_eq_bind, Option.bind_some,
      descend?_eq_fieldAlong? ht hcomposite hne, ih]

/-- Names that lead to a field are a chain of fields. -/
theorem chain_of_fieldAlong? {parent : String} {names : List String} {last : AnyField}
    (h : s.fieldAlong? parent names = some last) : s.Chain parent names last := by
  induction names generalizing parent with
  | nil => cases h
  | cons name names ih =>
    obtain ⟨field, hfield, h⟩ := Option.bind_eq_some_iff.mp h
    have hdeclares := declaresField_iff.mpr hfield
    cases names with
    | nil =>
      cases h
      exact .field hdeclares
    | cons next names =>
      obtain ⟨inner, hinner, -⟩ := Option.bind_eq_some_iff.mp h
      obtain ⟨t, ht, hcomposite⟩ := exists_composite_of_findOutputField? hinner
      rw [descend?_eq_fieldAlong? ht hcomposite (List.cons_ne_nil next names)] at h
      exact .into hdeclares ht hcomposite (ih h)

/-! ### Dotted paths -/

/-- Between its dots the path names a chain of fields. -/
def Descends (s : Schema) (root path : String) (field : AnyField) : Prop :=
  ∃ names, (∀ n ∈ names, '.' ∉ n.toList) ∧ Text.joinWith "." names = path ∧ s.Chain root names field

/-- A path descends to the field that is found at it, and to no other. -/
theorem descends_iff {root path : String} {field : AnyField} :
    s.Descends root path field ↔ s.fieldAt? root path = some field := by
  have hdot : ".".toList = ['.'] := rfl
  constructor
  · rintro ⟨names, hdots, hjoined, hchain⟩
    have hne : names ≠ [] := by
      rintro rfl
      cases hchain
    rw [fieldAt?, (Text.pieces_eq_iff '.' hdot hne).mpr ⟨hdots, hjoined⟩]
    exact hchain.fieldAlong?
  · intro h
    obtain ⟨hdots, hjoined⟩ := (Text.pieces_eq_iff '.' hdot (Text.pieces_ne_nil '.' path)).mp rfl
    exact ⟨_, hdots, hjoined, chain_of_fieldAlong? h⟩

/-- The lookup of the program finds what is at a path; where nothing is, it fails. -/
theorem toOption_fieldAt (s : Schema) (root path : String) :
    (s.fieldAt root path).toOption = s.fieldAt? root path := by
  unfold fieldAt
  cases s.fieldAt? root path <;> rfl

/-- A selected field is looked up by its path, and if it is not found, this is why no result is made for it. -/
theorem projectField_eq_fieldAt {root path name : String} (h : name ≠ typenameField) (label : Option String)
    (args : List Argument) (dirs : List Directive) (below : Option (List Selection)) :
    projectField s root path (.field label name args dirs below) =
      s.fieldAt root (stepPath path name) >>= fun field => match below with
        | none => .ok (.leaf (label.getD name) (field.type.expression true))
        | some selections => do
          let names ← selectedNames selections
          let fields ← projectFields s root (stepPath path name) selections
          return .composite (label.getD name) (flatMembers (label.getD name) names) field.type fields := by
  rw [projectField_of_ne h, fieldAt, resolve?]
  cases s.fieldAt? root (stepPath path name) <;> rfl

theorem fieldAt?_dotted_of_composite {root path : String} {field : AnyField} {t : NamedType}
    (h : s.fieldAt? root path = some field) (ht : s.find? field.type.name = some t)
    (hcomposite : t.content.isComposite = true) (rest : String) :
    s.fieldAt? root (dotted path rest) = s.fieldAt? field.type.name rest := by
  rw [fieldAt?_dotted, h, Option.bind_some,
    descend?_eq_fieldAlong? ht hcomposite (Text.pieces_ne_nil '.' rest), fieldAt?]

/-- A path leads to a field exactly if it names a chain of fields between its dots, and otherwise the whole path
is reported. Behind a field that leads into an object or interface it goes on as a path from there. -/
theorem fieldAt_follows_chain (s : Schema) (root path : String) :
    (∀ field, s.fieldAt root path = .ok field ↔ s.Descends root path field) ∧
    (s.fieldAt root path = .error (.pathNotFound path) ↔ ∀ field, ¬ s.Descends root path field) ∧
    ∀ field t, s.fieldAt root path = .ok field → s.find? field.type.name = some t → t.content.isComposite = true →
      ∀ rest, (s.fieldAt root (dotted path rest)).toOption = (s.fieldAt field.type.name rest).toOption := by
  refine ⟨fun field => ?_, ?_, ?_⟩
  · rw [descends_iff, ← toOption_fieldAt, toOption_eq_some_iff]
  · simp only [descends_iff]
    rw [fieldAt]
    cases s.fieldAt? root path with
    | none => simp
    | some field => simp
  · intro field t hfield ht hcomposite rest
    have hfound : s.fieldAt? root path = some field := by
      rw [← toOption_fieldAt, hfield]
      rfl
    rw [toOption_fieldAt, toOption_fieldAt, fieldAt?_dotted_of_composite hfound ht hcomposite]

/-- The posts of an author are reached over a post, and a dot in front of a path names a field without a name. -/
theorem fieldAt_follows_chain_on_blog :
    (∃ t, blog.fieldAt "Query" "post.authors" =
        .ok (.output ⟨none, "authors", [⟨none, "first", .named "Int"⟩], .list (.nonNull (.named "Author"))⟩) ∧
      blog.find? "Author" = some t ∧ t.content.isComposite = true) ∧
    (blog.fieldAt "Query" "post.authors.posts.title").toOption =
      (blog.fieldAt "Author" "posts.title").toOption ∧
    blog.fieldAt "Author" "posts.title" = .ok (.output ⟨none, "title", [], .nonNull (.named "String")⟩) ∧
    ∀ field, ¬ blog.Descends "Query" ".post" field := by
  have hauthors : blog.fieldAt "Query" "post.authors" =
      .ok (.output ⟨none, "authors", [⟨none, "first", .named "Int"⟩], .list (.nonNull (.named "Author"))⟩) := by
    rw [← toOption_eq_some_iff, toOption_fieldAt]
    decide +kernel
  have hauthor : blog.find? "Author" = some ⟨none, "Author", .interface
      [⟨none, "name", [], .named "String"⟩, ⟨none, "posts", [], .list (.named "Post")⟩]⟩ := rfl
  have htitle : blog.fieldAt "Author" "posts.title" =
      .ok (.output ⟨none, "title", [], .nonNull (.named "String")⟩) := by
    rw [← toOption_eq_some_iff, toOption_fieldAt]
    decide +kernel
  have hdot : blog.fieldAt "Query" ".post" = .error (.pathNotFound ".post") := by
    have hnone : blog.fieldAt? "Query" ".post" = none := by decide +kernel
    rw [fieldAt, hnone]
  exact ⟨⟨_, hauthors, hauthor, rfl⟩,
    (fieldAt_follows_chain blog "Query" "post.authors").2.2 _ _ hauthors hauthor rfl "posts.title", htitle,
    (fieldAt_follows_chain blog "Query" ".post").2.1.mp hdot⟩

end Schema

end GraphDecl
