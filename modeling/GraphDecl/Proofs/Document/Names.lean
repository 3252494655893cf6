import GraphDecl.Proofs.Document.TokenText
import GraphDecl.Schema.Basic

/-!
Names. A name is a letter or underscore and then letters, digits and underscores, so it is never empty and
holds no dot. Every name token of a document carries one; the predicates below say the same of the
definitions of a document and of the types of a schema.
-/

namespace GraphDecl

/-- Whether a text is a name as documents write them. -/
def isName (s : String) : Bool :=
  match s.toList with
  | [] => false
  | c :: r => isNameStart c && r.all isNameContinue

/-! ### Characters of names -/

theorem isNameContinue_of_isNameStart {c : Char} (h : isNameStart c = true) :
    isNameContinue c = true := by
  simp only [isNameStart, isNameContinue, Char.isAlphanum, Bool.or_eq_true] at h ⊢
  rcases h with h | h
  · exact .inl (.inl h)
  · exact .inr h

theorem toList_ne_nil_of_isName {s : String} (h : isName s = true) : s.toList ≠ [] := by
  intro hnil
  simp [isName, hnil] at h

theorem isNameContinue_of_mem {s : String} (h : isName s = true) {c : Char} (hc : c ∈ s.toList) :
    isNameContinue c = true := by
  unfold isName at h
  split at h
  · next hs => simp [hs] at hc
  · next d r hs =>
    simp only [Bool.and_eq_true, List.all_eq_true] at h
    rw [hs, List.mem_cons] at hc
    rcases hc with rfl | hc
    · exact isNameContinue_of_isNameStart h.1
    · exact h.2 c hc

/-! ### Tokens -/

/-- The names among the tokens are names. -/
def NamedTokens (ts : List Token) : Prop := ∀ n, .name n ∈ ts → isName n = true

theorem NamedTokens.of_suffix {ts rest : List Token} (h : NamedTokens ts) (hrest : rest <:+ ts) :
    NamedTokens rest :=
  fun n hn => h n (hrest.mem hn)

/-- The lexer gives names only that are names. -/
theorem Lexer.isName_of_readToken {c : Char} {r : List Char} {n : String} {k : Nat}
    (h : readToken c r = .ok (.name n, k)) : isName n = true := by
  cases readToken_eq_ok_iff.mp h with
  | name _ hc => simp [isName, hc]
  | number _ _ _ _ ht => split at ht <;> cases ht

theorem Lexer.namedTokens_lexemesFrom (offset : Nat) (cs : List Char) :
    NamedTokens ((lexemesFrom offset cs).map (·.token)) := by
  intro n hn
  fun_induction lexemesFrom offset cs with
  | case1 => simp at hn
  | case2 _ _ _ _ ih => exact ih hn
  | case3 _ _ _ _ ih => exact ih hn
  | case4 offset c r _ _ token k hread ih =>
    rw [List.map_cons, List.mem_cons] at hn
    rcases hn with rfl | hn
    · exact isName_of_readToken hread
    · exact ih hn
  | case5 => simp at hn

theorem namedTokens_tokens (text : String) : NamedTokens (tokens text) :=
  Lexer.namedTokens_lexemesFrom 0 text.toList

/-! ### Definitions -/

mutual

/-- Fields, their labels and the types of conditions have names, at any depth. -/
def Selection.Named : Selection → Prop
  | .field label name _ _ below =>
    (∀ l, label = some l → isName l = true) ∧ isName name = true ∧ Selection.NamedBelow below
  | .spread fragment _ => isName fragment = true
  | .inline condition _ selections =>
    (∀ c, condition = some c → isName c = true) ∧ Selection.AllNamed selections

def Selection.NamedBelow : Option (List Selection) → Prop
  | none => True
  | some selections => Selection.AllNamed selections

def Selection.AllNamed : List Selection → Prop
  | [] => True
  | x :: xs => x.Named ∧ Selection.AllNamed xs

end

theorem Selection.allNamed_iff {xs : List Selection} : AllNamed xs ↔ ∀ x ∈ xs, x.Named := by
  induction xs with
  | nil => simp [AllNamed]
  | cons x xs ih => simp [AllNamed, ih]

/-- An operation with names for itself, its variables and their types, and what it selects. -/
structure OperationDefinition.Named (d : OperationDefinition) : Prop where
  name : ∀ n, d.name = some n → isName n = true
  variableNames : ∀ v ∈ d.variableDefinitions, isName v.name = true ∧ isName v.type.name = true
  selections : Selection.AllNamed d.selections

def InputValueDefinition.Named (d : InputValueDefinition) : Prop :=
  isName d.name = true ∧ isName d.type.name = true

structure FieldDefinition.Named (d : FieldDefinition) : Prop where
  name : isName d.name = true
  arguments : ∀ a ∈ d.arguments, a.Named
  type : isName d.type.name = true

def TypeBody.Named : TypeBody → Prop
  | .scalar => True
  | .object interfaces fields | .interface interfaces fields =>
    (∀ i ∈ interfaces, isName i = true) ∧ ∀ f ∈ fields, f.Named
  | .union members => ∀ m ∈ members, isName m = true
  | .enum values => ∀ v ∈ values, isName v.name = true
  | .inputObject fields => ∀ f ∈ fields, f.Named

/-- What a definition says about operations and types is said with names. -/
def Definition.Named : Definition → Prop
  | .operation d => d.Named
  | .type d => isName d.name = true ∧ d.body.Named
  | .typeExtension d => isName d.name = true ∧ d.body.Named
  | _ => True

end GraphDecl
