import GraphDecl.Proofs.Rendering.Lines
import GraphDecl.Proofs.TypeScript.ReadBack

/-!
What generated code is written with. Names, type expressions and the marks around them hold no line break and no
slash, so that no line of code is more than one line, and none opens a comment.
-/

namespace GraphDecl

open Rendering

/-! ### Names -/

/-- Whether a text is written with characters of names only. -/
def isNameLike (s : String) : Bool := s.toList.all isNameContinue

theorem isNameLike_of_isName {s : String} (h : isName s = true) : isNameLike s = true :=
  List.all_eq_true.mpr fun _ hc => isNameContinue_of_mem h hc

theorem isNameLike_camelCase {s : String} (h : isNameLike s = true) : isNameLike (camelCase s) = true :=
  List.all_eq_true.mpr (isNameContinue_of_mem_camelCase (List.all_eq_true.mp h))

theorem isNameLike_append (s t : String) : isNameLike (s ++ t) = (isNameLike s && isNameLike t) := by
  simp [isNameLike]

theorem isNameLike_operationTypeName {name : String} (h : isName name = true) (k : OperationKind) :
    isNameLike (operationTypeName name k.text) = true := by
  have hkind : isNameLike (camelCase k.text) = true := by
    cases k <;> decide
  rw [operationTypeName, isNameLike_append, isNameLike_of_isName h, hkind, Bool.and_self]

theorem isNameLike_operationNamespaceName {name : String} (h : isName name = true) (k : OperationKind) :
    isNameLike (operationNamespaceName name k.text) = true := by
  have hkind : isNameLike (camelCase k.text) = true := by
    cases k <;> decide
  rw [operationNamespaceName, isNameLike_append, isNameLike_camelCase (isNameLike_of_isName h), hkind,
    Bool.and_self]

theorem not_mem_of_isNameLike {s : String} (h : isNameLike s = true) {c : Char}
    (hc : isNameContinue c = false) : c ∉ s.toList := by
  intro hmem
  rw [List.all_eq_true.mp h c hmem] at hc
  cases hc

/-! ### Code -/

/-- Whether a text holds no line break and no slash. -/
def isCode (s : String) : Bool := s.toList.all fun c => !Text.isLineBreak c && c != '/'

theorem isCode_append (s t : String) : isCode (s ++ t) = (isCode s && isCode t) := by
  simp [isCode]

theorem isLineBreak_of_isNameContinue {c : Char} (h : isNameContinue c = true) : Text.isLineBreak c = false := by
  rw [← Bool.not_eq_true]
  intro hbreak
  simp only [Text.isLineBreak, Bool.or_eq_true, beq_iff_eq] at hbreak
  rcases hbreak with ((((((((rfl | rfl) | rfl) | rfl) | rfl) | rfl) | rfl) | rfl) | rfl) | rfl <;>
    exact absurd h (by decide)

/-- What is made of the characters of names is code. -/
theorem isCode_of_isNameLike {s : String} (h : isNameLike s = true) : isCode s = true := by
  refine List.all_eq_true.mpr fun c hc => ?_
  have hbreak : Text.isLineBreak c = false := isLineBreak_of_isNameContinue (List.all_eq_true.mp h c hc)
  have hslash : c ≠ '/' := fun hc' => not_mem_of_isNameLike h (c := '/') (by decide) (hc' ▸ hc)
  simp [hbreak, hslash]

theorem isCode_of_isName {s : String} (h : isName s = true) : isCode s = true :=
  isCode_of_isNameLike (isNameLike_of_isName h)

theorem break_not_mem_of_isCode {s : String} (h : isCode s = true) : '\n' ∉ s.toList := by
  intro hmem
  have hbreak := List.all_eq_true.mp h _ hmem
  revert hbreak
  decide

theorem slash_not_mem_of_isCode {s : String} (h : isCode s = true) : '/' ∉ s.toList := by
  intro hmem
  have hslash := List.all_eq_true.mp h _ hmem
  revert hslash
  decide

theorem isCode_joinWith {glue : String} (hglue : isCode glue = true) {texts : List String}
    (h : ∀ t ∈ texts, isCode t = true) : isCode (Text.joinWith glue texts) = true :=
  List.all_eq_true.mpr
    (Text.forall_mem_joinWith (List.all_eq_true.mp hglue) fun t ht => List.all_eq_true.mp (h t ht))

theorem isCode_dotted {space name : String} (hspace : isCode space = true) (hname : isCode name = true) :
    isCode (dotted space name) = true := by
  simp +decide [dotted, isCode_append, hspace, hname]

theorem isCode_indentLine (width : Nat) (l : String) : isCode (indentLine width l) = isCode l := by
  unfold indentLine
  split
  · rfl
  · simp [isCode, show Text.isLineBreak ' ' = false from rfl]

/-! ### Types -/

theorem Layer.isCode_around {text : String} (h : isCode text = true) (l : Layer) :
    isCode (l.around text) = true := by
  cases l with
  | list =>
    show isCode (arrayOf text) = true
    unfold arrayOf
    split <;> simp +decide [isCode_append, h]
  | null => simp +decide [Layer.around, orNull, isCode_append, h]

/-- The layers around a type add no slash and no line break. -/
theorem isCode_wrap {text : String} (h : isCode text = true) (nullable : Bool) (type : FieldType) :
    isCode (type.wrap nullable text) = true := by
  rw [wrap_eq_foldr]
  induction type.layers nullable with
  | nil => exact h
  | cons l ls ih => exact l.isCode_around ih

/-- The expression for a type whose name is a name is code. -/
theorem FieldType.isCode_expression {type : FieldType} (h : isName type.name = true) (nullable : Bool) :
    isCode (type.expression nullable).text = true := by
  rw [text_expression]
  exact isCode_wrap (isCode_of_isName (isName_typeName h)) nullable type

theorem TypeRef.isCode_expression {r : TypeRef} (h : isName r.name = true) (nullable : Bool) :
    isCode (r.expression nullable).text = true := by
  rw [text_expression]
  exact isCode_wrap (isCode_of_isName (isName_typeName h)) nullable r.toFieldType

structure Member.IsCode (m : Member) : Prop where
  name : isNameLike m.name = true
  type : isCode m.type = true

theorem Member.isCode_flatMembers {space : String} (hspace : isNameLike space = true) {names : List String}
    (h : ∀ n ∈ names, isName n = true) : ∀ m ∈ flatMembers space names, m.IsCode := by
  refine List.forall_mem_map.mpr fun n hn => ?_
  have hname := isNameLike_of_isName (h n hn)
  exact ⟨hname, isCode_dotted (isCode_of_isNameLike hspace) (isCode_of_isNameLike hname)⟩

/-- An interface with a name and members in code. Descriptions are no code. -/
structure Interface.IsCode (i : Interface) : Prop where
  name : isNameLike i.name = true
  members : ∀ m ∈ i.members, m.IsCode

theorem isCode_compositeText {members : List Member} (h : ∀ m ∈ members, m.IsCode) (type : FieldType) :
    isCode (compositeText members type) = true := by
  have hmembers : ∀ t ∈ members.map (fun m => m.name ++ ": " ++ m.type ++ ";"), isCode t = true := by
    refine List.forall_mem_map.mpr fun m hm => ?_
    simp +decide [isCode_append, isCode_of_isNameLike (h m hm).name, (h m hm).type]
  have hglue : isCode " " = true := by decide
  have hobject := isCode_joinWith hglue hmembers
  apply isCode_wrap
  simp +decide [isCode_append, hobject]

end GraphDecl
