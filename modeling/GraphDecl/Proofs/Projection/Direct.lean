import GraphDecl.Proofs.Document.Selections
import GraphDecl.Proofs.Outcome
import GraphDecl.Proofs.Projection.Path
import GraphDecl.Schema.Builtin

/-!
Projection, with the type that is selected on at hand. A selection is laid over the fields of that type;
no path is resolved. Projection by paths has the same results, and where it fails, the path that it names
leads to the first field that its type lacks.
-/

namespace GraphDecl

/-! ### Results on a type -/

namespace Schema

mutual

def resultOn (s : Schema) (field? : String → Option FieldType) : Selection → Option ResultField
  | .field label name _ _ below =>
    if name = typenameField then some (.leaf (label.getD name) ⟨"string", []⟩)
    else (field? name).bind fun type => resultOf s (label.getD name) type below
  | .spread .. | .inline .. => none

/-- The result field with the name `result` of a field of this type, and what is selected below it. -/
def resultOf (s : Schema) (result : String) (type : FieldType) :
    Option (List Selection) → Option ResultField
  | none => some (.leaf result (type.expression true))
  | some selections => (resultsOn s (s.outputField? type.name) selections).map fun fields =>
    .composite result (flatMembers result (fields.map (·.name))) type fields

def resultsOn (s : Schema) (field? : String → Option FieldType) :
    List Selection → Option (List ResultField)
  | [] => some []
  | x :: xs => (resultOn s field? x).bind fun f => (resultsOn s field? xs).map (f :: ·)

end

/-- What a selection on a type with the fields `field?` can have as its result: the name of the type, a leaf,
or a field with the results of what is selected below it. -/
inductive HasResult (s : Schema) (field? : String → Option FieldType) : Selection → ResultField → Prop
  | typename {label : Option String} {args : List Argument} {dirs : List Directive}
    {below : Option (List Selection)} :
    HasResult s field? (.field label typenameField args dirs below)
      (.leaf (label.getD typenameField) ⟨"string", []⟩)
  | leaf {label : Option String} {name : String} {args : List Argument} {dirs : List Directive}
    {type : FieldType} (hne : name ≠ typenameField) (htype : field? name = some type) :
    HasResult s field? (.field label name args dirs none) (.leaf (label.getD name) (type.expression true))
  | composite {label : Option String} {name : String} {args : List Argument} {dirs : List Directive}
    {type : FieldType} {selections : List Selection} {fields : List ResultField}
    (hne : name ≠ typenameField) (htype : field? name = some type)
    (hbelow : s.resultsOn (s.outputField? type.name) selections = some fields) :
    HasResult s field? (.field label name args dirs (some selections))
      (.composite (label.getD name) (flatMembers (label.getD name) (fields.map (·.name))) type fields)

mutual

/-- The selected fields that their types lack, in the order of the selections: the names that lead to each
of them. Nothing is looked for below such a field. -/
def missingOn (s : Schema) (field? : String → Option FieldType) : Selection → List (List String)
  | .field _ name _ _ below =>
    if name = typenameField then []
    else match field? name with
      | none => [[name]]
      | some type => (missingBelow s type.name below).map (name :: ·)
  | .spread .. | .inline .. => []

def missingBelow (s : Schema) (parent : String) : Option (List Selection) → List (List String)
  | none => []
  | some selections => missingAmong s (s.outputField? parent) selections

def missingAmong (s : Schema) (field? : String → Option FieldType) :
    List Selection → List (List String)
  | [] => []
  | x :: xs => missingOn s field? x ++ missingAmong s field? xs

end

variable {s : Schema} {root path : String} {field? : String → Option FieldType}

theorem hasResult_of_resultOn {x : Selection} {f : ResultField} (h : s.resultOn field? x = some f) :
    s.HasResult field? x f := by
  cases x with
  | field label name args dirs below =>
    rw [resultOn] at h
    split at h
    · next htypename =>
      subst htypename
      cases h
      exact .typename
    · next hne =>
      obtain ⟨type, htype, h⟩ := Option.bind_eq_some_iff.mp h
      cases below with
      | none =>
        cases h
        exact .leaf hne htype
      | some selections =>
        obtain ⟨fields, hbelow, rfl⟩ := Option.map_eq_some_iff.mp h
        exact .composite hne htype hbelow
  | spread fragment dirs => cases h
  | inline condition dirs selections => cases h

theorem name_resultOn {x : Selection} {f : ResultField} (h : s.resultOn field? x = some f) :
    f.name = x.resultName := by
  cases hasResult_of_resultOn h with
  | typename => rfl
  | leaf => rfl
  | composite => rfl

theorem resultsOn_cons_eq_some_iff {x : Selection} {xs : List Selection} {fs : List ResultField} :
    s.resultsOn field? (x :: xs) = some fs ↔
      ∃ f gs, s.resultOn field? x = some f ∧ s.resultsOn field? xs = some gs ∧ fs = f :: gs := by
  rw [resultsOn, Option.bind_eq_some_iff]
  simp only [Option.map_eq_some_iff]
  constructor
  · rintro ⟨f, hf, gs, hgs, rfl⟩
    exact ⟨f, gs, hf, hgs, rfl⟩
  · rintro ⟨f, gs, hf, hgs, rfl⟩
    exact ⟨f, hf, gs, hgs, rfl⟩

/-- The results of selections have their names, in order. -/
theorem names_resultsOn {xs : List Selection} {fs : List ResultField}
    (h : s.resultsOn field? xs = some fs) : fs.map (·.name) = xs.map (·.resultName) := by
  induction xs generalizing fs with
  | nil => cases h; rfl
  | cons x xs ih =>
    obtain ⟨f, gs, hf, hgs, rfl⟩ := resultsOn_cons_eq_some_iff.mp h
    rw [List.map_cons, List.map_cons, name_resultOn hf, ih hgs]

theorem resultOf_some (result : String) (type : FieldType) (selections : List Selection) :
    s.resultOf result type (some selections) = (s.resultsOn (s.outputField? type.name) selections).map
      (.composite result (flatMembers result (selections.map (·.resultName))) type) := by
  rw [resultOf]
  cases h : s.resultsOn (s.outputField? type.name) selections with
  | none => rfl
  | some fields => rw [Option.map_some, Option.map_some, names_resultsOn h]

/-- Induction over the results of selections, with those of what is below the first field and those that follow.
Other selections than fields have no results. -/
@[elab_as_elim]
theorem resultsInduction
    {P : (field? : String → Option FieldType) → (xs : List Selection) → (fs : List ResultField) →
      s.resultsOn field? xs = some fs → Prop}
    (nil : ∀ field?, P field? [] [] rfl)
    (field : ∀ field? label name args dirs below f xs fs h hxs,
      s.HasResult field? (.field label name args dirs below) f →
      (∀ selections, below = some selections → ∀ {type : FieldType} {inside} hinside,
        P (s.outputField? type.name) selections inside hinside) →
      P field? xs fs hxs → P field? (.field label name args dirs below :: xs) (f :: fs) h)
    {field? : String → Option FieldType} {xs : List Selection} {fs : List ResultField}
    (h : s.resultsOn field? xs = some fs) : P field? xs fs h := by
  induction xs using Selection.listInduction generalizing field? fs with
  | nil =>
    cases h
    exact nil field?
  | field label name args dirs below xs ihbelow ihxs =>
    obtain ⟨f, rest, hf, hrest, rfl⟩ := resultsOn_cons_eq_some_iff.mp h
    refine field field? label name args dirs below f xs rest h hrest (hasResult_of_resultOn hf) ?_ (ihxs hrest)
    intro selections hbelow type inside hinside
    exact ihbelow selections hbelow hinside
  | spread fragment dirs xs _ =>
    obtain ⟨f, rest, hf, -⟩ := resultsOn_cons_eq_some_iff.mp h
    cases hf
  | inline condition dirs selections xs _ _ =>
    obtain ⟨f, rest, hf, -⟩ := resultsOn_cons_eq_some_iff.mp h
    cases hf

/-! ### Both ways of projecting -/

/-- What the missing fields mean for a result and its projection below `path`: without any, both are there
and the same, and else the projection stops at the first one. -/
def Agree {α : Type} (path : String) (missing : List (List String)) (result : Option α)
    (projected : Except CompileError α) : Prop :=
  match missing with
  | [] => ∃ x, result = some x ∧ projected = .ok x
  | names :: _ => result = none ∧ projected = .error (.pathNotFound (pathBelow path names))

/-- Below a field, both ways to results agree if they agree on what is selected there. -/
theorem Agree.below {α β : Type} {path name : String} {missing : List (List String)}
    {result : Option α} {projected : Except CompileError α} (hname : isName name = true)
    (h : Agree (stepPath path name) missing result projected) (f : α → β) :
    Agree path (missing.map (name :: ·)) (result.map f) (f <$> projected) := by
  cases missing with
  | nil =>
    obtain ⟨x, rfl, rfl⟩ := h
    exact ⟨f x, rfl, rfl⟩
  | cons names rest =>
    obtain ⟨rfl, rfl⟩ := h
    rw [pathBelow_stepPath path hname]
    exact ⟨rfl, rfl⟩

/-- And on a row of selections, if they agree on each of them. -/
theorem Agree.cons {path : String} {missing₁ missing₂ : List (List String)}
    {result : Option ResultField} {results : Option (List ResultField)}
    {projected₁ : Except CompileError ResultField}
    {projected₂ : Except CompileError (List ResultField)}
    (h₁ : Agree path missing₁ result projected₁) (h₂ : Agree path missing₂ results projected₂) :
    Agree path (missing₁ ++ missing₂) (result.bind fun f => results.map (f :: ·))
      (projected₁ >>= fun f => (f :: ·) <$> projected₂) := by
  cases missing₁ with
  | nil =>
    obtain ⟨f, rfl, rfl⟩ := h₁
    cases missing₂ with
    | nil =>
      obtain ⟨fs, rfl, rfl⟩ := h₂
      exact ⟨f :: fs, rfl, rfl⟩
    | cons names rest =>
      obtain ⟨rfl, rfl⟩ := h₂
      exact ⟨rfl, rfl⟩
  | cons names rest =>
    obtain ⟨rfl, rfl⟩ := h₁
    exact ⟨rfl, rfl⟩

theorem selectedNames_eq_ok {xs : List Selection} (h : Selection.AllFieldsOnly xs) :
    selectedNames xs = .ok (xs.map (·.resultName)) := by
  induction xs, h using Selection.fieldsInduction with
  | nil => rfl
  | field label name args dirs below xs only _ ih =>
    rw [selectedNames, ih]
    rfl

theorem project_eq_projectFields {xs : List Selection} (h : Selection.AllFieldsOnly xs) :
    project s root path xs = projectFields s root path xs := by
  rw [project, selectedNames_eq_ok h]
  rfl

theorem projectFields_cons (x : Selection) (xs : List Selection) :
    projectFields s root path (x :: xs) =
      projectField s root path x >>= fun f => (f :: ·) <$> projectFields s root path xs := by
  rw [projectFields]
  rfl

theorem projectField_typename (label : Option String) (args : List Argument) (dirs : List Directive)
    (below : Option (List Selection)) :
    projectField s root path (.field label typenameField args dirs below) =
      .ok (.leaf (label.getD typenameField) ⟨"string", []⟩) := by
  rw [projectField]
  rfl

/-- Any field but `__typename` is looked up at its path. -/
theorem projectField_of_ne {name : String} (h : name ≠ typenameField) (label : Option String)
    (args : List Argument) (dirs : List Directive) (below : Option (List Selection)) :
    projectField s root path (.field label name args dirs below) =
      match s.resolve? root (stepPath path name) with
      | none => .error (.pathNotFound (stepPath path name))
      | some type => match below with
        | none => .ok (.leaf (label.getD name) (type.expression true))
        | some selections => do
          let names ← selectedNames selections
          let fields ← projectFields s root (stepPath path name) selections
          return .composite (label.getD name) (flatMembers (label.getD name) names) type fields := by
  rw [projectField, if_neg (by simpa using h)]
  dsimp only
  rw [Schema.fieldAt, Schema.resolve?]
  cases s.fieldAt? root (stepPath path name) <;> rfl

/-- Both ways to results agree wherever a path goes on with the fields of a type. -/
theorem projectFields_agree {xs : List Selection} (hfields : Selection.AllFieldsOnly xs)
    (hnamed : Selection.AllNamed xs) (h : s.GoesOn root path field?) :
    Agree path (s.missingAmong field? xs) (s.resultsOn field? xs) (projectFields s root path xs) := by
  -- what links the path to the type at hand is that the path goes on to the fields `field?`
  induction xs, hfields using Selection.fieldsInduction generalizing path field? with
  | nil => exact ⟨[], rfl, rfl⟩
  | field label name args dirs below xs only ihbelow ihxs =>
    obtain ⟨⟨-, hname, hbelow⟩, hnamed⟩ := hnamed
    rw [projectFields_cons, missingAmong, resultsOn]
    refine Agree.cons ?_ (ihxs hnamed h)
    rw [missingOn, resultOn]
    by_cases htypename : name = typenameField
    · subst htypename
      rw [projectField_typename]
      exact ⟨_, rfl, rfl⟩
    rw [projectField_of_ne htypename, resolve?_stepPath h hname, if_neg htypename,
      if_neg htypename]
    cases hfield : field? name with
    | none => exact ⟨rfl, by rw [stepPath_eq_pathBelow]⟩
    | some type =>
      cases below with
      | none => exact ⟨_, rfl, rfl⟩
      | some selections =>
        obtain ⟨inside, ih⟩ := ihbelow selections rfl
        have hagree := (ih hbelow (h.step hname hfield)).below hname
          (ResultField.composite (label.getD name)
            (flatMembers (label.getD name) (selections.map (·.resultName))) type)
        rw [← resultOf_some] at hagree
        simp only [selectedNames_eq_ok inside]
        exact hagree

theorem names_of_selectedNames {xs : List Selection} {names : List String}
    (h : selectedNames xs = .ok names) : names = xs.map (·.resultName) := by
  induction xs generalizing names with
  | nil =>
    cases h
    rfl
  | cons x xs ih =>
    cases x with
    | field label name args dirs below =>
      obtain ⟨rest, hrest, rfl⟩ := map_eq_ok_iff.mp h
      rw [ih hrest]
      rfl
    | spread fragment dirs => cases h
    | inline condition dirs selections => cases h

/-- What projection gives is what the selected fields have on their types, also where selections that are
not looked at hold more than fields. -/
theorem resultsOn_of_projectFields {xs : List Selection} (hnamed : Selection.AllNamed xs)
    (hpath : s.GoesOn root path field?) {fields : List ResultField}
    (h : projectFields s root path xs = .ok fields) : s.resultsOn field? xs = some fields := by
  -- `projectFields_agree` does not apply: below `__typename` there may be more than fields
  induction xs using Selection.listInduction generalizing path field? fields with
  | nil =>
    cases h
    rfl
  | field label name args dirs below xs ihbelow ihxs =>
    obtain ⟨⟨-, hname, hbelow⟩, hnamed⟩ := hnamed
    rw [projectFields_cons] at h
    obtain ⟨f, hf, h⟩ := bind_eq_ok_iff.mp h
    obtain ⟨fs, hfs, rfl⟩ := map_eq_ok_iff.mp h
    refine resultsOn_cons_eq_some_iff.mpr ⟨f, fs, ?_, ihxs hnamed hpath hfs, rfl⟩
    rw [resultOn]
    by_cases htypename : name = typenameField
    · subst htypename
      rw [projectField_typename] at hf
      cases hf
      rfl
    rw [projectField_of_ne htypename, resolve?_stepPath hpath hname] at hf
    rw [if_neg htypename]
    cases hfield : field? name with
    | none =>
      rw [hfield] at hf
      cases hf
    | some type =>
      rw [hfield] at hf
      cases below with
      | none =>
        cases hf
        rfl
      | some selections =>
        obtain ⟨names, hnames, hf⟩ := bind_eq_ok_iff.mp hf
        obtain ⟨fields, hfields, hf⟩ := bind_eq_ok_iff.mp hf
        cases hf
        have hinside := ihbelow selections rfl hbelow (hpath.step hname hfield) hfields
        rw [Option.bind_some, resultOf_some, hinside, names_of_selectedNames hnames]
        rfl
  | spread fragment dirs xs _ =>
    obtain ⟨f, hf, -⟩ := bind_eq_ok_iff.mp ((projectFields_cons _ _).symm.trans h)
    cases hf
  | inline condition dirs selections xs _ _ =>
    obtain ⟨f, hf, -⟩ := bind_eq_ok_iff.mp ((projectFields_cons _ _).symm.trans h)
    cases hf

/-- What is projected along paths is what is selected type by type. -/
theorem resultsOn_of_project {xs : List Selection} (hnamed : Selection.AllNamed xs)
    (hpath : s.GoesOn root path field?) {fields : List ResultField}
    (h : project s root path xs = .ok fields) : s.resultsOn field? xs = some fields := by
  obtain ⟨_, -, h⟩ := bind_eq_ok_iff.mp h
  exact resultsOn_of_projectFields hnamed hpath h

/-- From an object or interface, projection by paths has the results that the selected fields have on the
type that the path leads to. It fails if and only if some selected field is missing on its type, and names
the first such field by the fields that lead to it. -/
theorem project_agrees_with_resultsOn {t : NamedType} (hroot : s.find? root = some t)
    (ht : t.content.isComposite = true) {parent : String} (hpath : s.LeadsTo root path parent)
    {xs : List Selection} (hfields : Selection.AllFieldsOnly xs) (hnamed : Selection.AllNamed xs) :
    (∀ fields, project s root path xs = .ok fields ↔ s.resultsOn (s.outputField? parent) xs = some fields) ∧
    ∀ e, project s root path xs = .error e ↔
      ∃ names rest, s.missingAmong (s.outputField? parent) xs = names :: rest ∧
        e = .pathNotFound (pathBelow path names) := by
  have hagree := projectFields_agree hfields hnamed (hpath.goesOn hroot ht)
  rw [← project_eq_projectFields hfields] at hagree
  cases hmissing : s.missingAmong (s.outputField? parent) xs with
  | nil =>
    rw [hmissing] at hagree
    obtain ⟨fields, hresult, hproject⟩ := hagree
    simp [hresult, hproject]
  | cons names rest =>
    rw [hmissing] at hagree
    obtain ⟨hresult, hproject⟩ := hagree
    simp [hresult, hproject, eq_comm]

def blog : Schema :=
  { types :=
      [ ⟨none, "Query", .object [⟨none, "post", [], .named "Post"⟩]⟩
      , ⟨none, "Post", .object
          [ ⟨none, "title", [], .nonNull (.named "String")⟩
          , ⟨none, "tags", [], .nonNull (.list (.named "Tag"))⟩
          , ⟨none, "authors", [⟨none, "first", .named "Int"⟩], .list (.nonNull (.named "Author"))⟩ ]⟩
      , ⟨none, "Author", .interface
          [⟨none, "name", [], .named "String"⟩, ⟨none, "posts", [], .list (.named "Post")⟩]⟩
      , ⟨none, "Tag", .enum [⟨none, "NEW"⟩, ⟨none, "OLD"⟩]⟩ ]
    builtin := Builtin.types
    query := some "Query"
    mutation := none
    subscription := none }

/-- `{ by: authors { name: posts { n: nme } } }` below `post`. -/
theorem project_agrees_on_blog :
    let below := [Selection.field (some "by") "authors" [] [] (some
      [.field (some "name") "posts" [] [] (some [.field (some "n") "nme" [] [] none])])]
    (∃ t, blog.find? "Query" = some t ∧ t.content.isComposite = true) ∧
    blog.LeadsTo "Query" "post" "Post" ∧ Selection.AllFieldsOnly below ∧ Selection.AllNamed below ∧
    project blog "Query" "post" below = .error (.pathNotFound "post.authors.posts.nme") := by
  intro below
  have hroot : blog.find? "Query" = some ⟨none, "Query", .object [⟨none, "post", [], .named "Post"⟩]⟩ := rfl
  have hpost : blog.resolve? "Query" "post" = some (.named "Post") := by decide +kernel
  have hpath : blog.LeadsTo "Query" "post" "Post" := .field (by decide) hpost
  have hfields : Selection.AllFieldsOnly below := by
    simp [below, Selection.AllFieldsOnly, Selection.FieldsOnly]
  have hnamed : Selection.AllNamed below := by
    simp only [below, Selection.AllNamed, Selection.Named, Selection.NamedBelow]
    decide
  refine ⟨⟨_, hroot, rfl⟩, hpath, hfields, hnamed, ?_⟩
  exact ((project_agrees_with_resultsOn hroot rfl hpath hfields hnamed).2 _).mpr
    ⟨["authors", "posts", "nme"], [], by decide +kernel, by decide +kernel⟩

end Schema

end GraphDecl
