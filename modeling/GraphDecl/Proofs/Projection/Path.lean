import GraphDecl.Projection
import GraphDecl.Proofs.Document.Names
import GraphDecl.Proofs.Text.Pieces

/-!
Dotted paths, one step at a time. A step by a name that holds no dot goes from the type at the end of the
path to one of its fields, whatever the path so far looks like.
-/

namespace GraphDecl

/-! ### Cutting at dots -/

theorem dot_not_mem {name : String} (h : isName name = true) : '.' ∉ name.toList := by
  intro hmem
  have hdot := isNameContinue_of_mem h hmem
  revert hdot
  decide

theorem pieces_name {name : String} (h : isName name = true) : Text.pieces '.' name = [name] :=
  Text.pieces_eq_singleton (dot_not_mem h)

/-- The names of a path with a dot in it are those in front of the dot and those behind it. -/
theorem pieces_dotted (path rest : String) :
    Text.pieces '.' (dotted path rest) = Text.pieces '.' path ++ Text.pieces '.' rest := by
  rw [dotted, String.append_assoc]
  exact Text.pieces_append path (by simp)

def pathBelow (path : String) (names : List String) : String :=
  Text.joinWith "." ((if path = "" then [] else [path]) ++ names)

theorem stepPath_eq_pathBelow (path name : String) : stepPath path name = pathBelow path [name] := by
  by_cases h : path = ""
  · simp [stepPath, pathBelow, h, Text.joinWith]
  · simp [stepPath, pathBelow, h, Text.joinWith, dotted, String.isEmpty_iff]

theorem stepPath_ne_empty (path : String) {name : String} (h : isName name = true) :
    stepPath path name ≠ "" := by
  intro hnil
  have hname := toList_ne_nil_of_isName h
  unfold stepPath at hnil
  split at hnil
  · simp [hnil] at hname
  · have := congrArg String.toList hnil
    simp [dotted] at this

/-- Taking the first of the names as a step leads to the same path. -/
theorem pathBelow_stepPath (path : String) {name : String} (h : isName name = true)
    (names : List String) : pathBelow (stepPath path name) names = pathBelow path (name :: names) := by
  rw [pathBelow, if_neg (stepPath_ne_empty path h), stepPath_eq_pathBelow, pathBelow, pathBelow]
  split
  · rfl
  · rfl

/-! ### Descending -/

namespace Schema

/-- The type of a field of an object, interface or input type. -/
def anyField? (s : Schema) (parent name : String) : Option FieldType := (s.findField? parent name).map (·.type)

def outputField? (s : Schema) (parent name : String) : Option FieldType :=
  (s.findOutputField? parent name).map (·.type)

def resolve? (s : Schema) (root path : String) : Option FieldType := (s.fieldAt? root path).map (·.type)

/-- A descent by many names is one descent after another. -/
theorem descend?_append (s : Schema) (start : AnyField) (names more : List String) :
    s.descend? start (names ++ more) = (s.descend? start names).bind (s.descend? · more) := by
  induction names generalizing start with
  | nil => rfl
  | cons n ns ih =>
    cases h : s.findOutputField? start.type.name n with
    | none => simp [descend?, h]
    | some field => simpa [descend?, h] using ih field

theorem fieldAlong?_append (s : Schema) (root : String) {names : List String} (hne : names ≠ [])
    (more : List String) :
    s.fieldAlong? root (names ++ more) = (s.fieldAlong? root names).bind (s.descend? · more) := by
  cases names with
  | nil => exact absurd rfl hne
  | cons n ns =>
    cases h : s.findField? root n with
    | none => simp [fieldAlong?, h]
    | some field => simpa [fieldAlong?, h] using s.descend?_append field ns more

/-- A longer path goes on from the field where a shorter one ends. -/
theorem fieldAt?_dotted (s : Schema) (root path rest : String) :
    s.fieldAt? root (dotted path rest) = (s.fieldAt? root path).bind (s.descend? · (Text.pieces '.' rest)) := by
  rw [fieldAt?, pieces_dotted, s.fieldAlong?_append root (Text.pieces_ne_nil '.' path), fieldAt?]

theorem findField?_of_findOutputField? {s : Schema} {parent name : String} {field : AnyField}
    (h : s.findOutputField? parent name = some field) : s.findField? parent name = some field := by
  obtain ⟨t, ht, h⟩ := Option.bind_eq_some_iff.mp h
  split at h
  · exact Option.bind_eq_some_iff.mpr ⟨t, ht, h⟩
  · cases h

/-- Of a type with output fields, every field is one. -/
theorem findOutputField?_eq_findField? {s : Schema} {parent : String} {t : NamedType}
    (ht : s.find? parent = some t) (hcomposite : t.content.isComposite = true) (name : String) :
    s.findOutputField? parent name = s.findField? parent name := by
  simp [findField?, findOutputField?, ht, hcomposite]

theorem anyField?_of_outputField? {s : Schema} {parent name : String} {type : FieldType}
    (h : s.outputField? parent name = some type) : s.anyField? parent name = some type := by
  obtain ⟨field, hfield, rfl⟩ := Option.map_eq_some_iff.mp h
  exact Option.map_eq_some_iff.mpr ⟨field, findField?_of_findOutputField? hfield, rfl⟩

theorem outputField?_eq_anyField? {s : Schema} {parent : String} {t : NamedType}
    (ht : s.find? parent = some t) (hcomposite : t.content.isComposite = true) :
    s.outputField? parent = s.anyField? parent := by
  funext name
  rw [outputField?, anyField?, findOutputField?_eq_findField? ht hcomposite]

/-- A path can go on to some fields: to those of the root itself, or to those of the type at its end. -/
inductive GoesOn (s : Schema) (root : String) :
    (path : String) → (field? : String → Option FieldType) → Prop
  | start : GoesOn s root "" (s.anyField? root)
  | below {path : String} {type : FieldType} (hne : path ≠ "")
      (htype : s.resolve? root path = some type) : GoesOn s root path (s.outputField? type.name)

section

variable {s : Schema} {root path : String} {field? : String → Option FieldType}

/-- The field at the end of a path with one more step is one that the path can go on to. -/
theorem resolve?_stepPath (h : s.GoesOn root path field?) {name : String} (hname : isName name = true) :
    s.resolve? root (stepPath path name) = field? name := by
  cases h with
  | start => simp [stepPath, resolve?, fieldAt?, pieces_name hname, fieldAlong?, descend?, anyField?]
  | below hne htype =>
    have hstep : stepPath path name = dotted path name := by
      simp [stepPath, String.isEmpty_iff, hne]
    obtain ⟨field, hfield, rfl⟩ := Option.map_eq_some_iff.mp htype
    rw [hstep, resolve?, fieldAt?_dotted, pieces_name hname, hfield]
    simp [descend?, outputField?]

theorem GoesOn.step (h : s.GoesOn root path field?) {name : String} (hname : isName name = true)
    {type : FieldType} (htype : field? name = some type) :
    s.GoesOn root (stepPath path name) (s.outputField? type.name) :=
  .below (stepPath_ne_empty path hname) ((resolve?_stepPath h hname).trans htype)

end

/-- A path leads from a root to a type: the empty path stays, any other one ends at a field. -/
inductive LeadsTo (s : Schema) (root : String) : (path parent : String) → Prop
  | start : LeadsTo s root "" root
  | field {path : String} {type : FieldType} (hne : path ≠ "")
      (hfield : s.resolve? root path = some type) : LeadsTo s root path type.name

/-- Below an object or interface every path goes on to the fields of the type that it leads to. -/
theorem LeadsTo.goesOn {s : Schema} {root path parent : String} {t : NamedType}
    (hroot : s.find? root = some t) (ht : t.content.isComposite = true) (h : s.LeadsTo root path parent) :
    s.GoesOn root path (s.outputField? parent) := by
  cases h with
  | start =>
    rw [outputField?_eq_anyField? hroot ht]
    exact .start
  | field hne hfield => exact .below hne hfield

end Schema

end GraphDecl
