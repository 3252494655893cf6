import GraphDecl.Proofs.Rendering.OperationsFile

/-!
Statements that declare types, line by line. Between the keywords and the marks of a statement stand names and type
expressions, and where one of them is missing there is no statement. A name is a word as documents write them, which
is how TypeScript writes words too, but for letters that documents do not have; keywords are not told from others.
-/

namespace GraphDecl.TypeScript

open Rendering

/-! ### Type expressions -/

/-- The text is a type expression. -/
def IsTypeText (text : String) : Prop := ∃ t, Reads .type (symbols text) t

/-- Apart from the inside of an object type, a phrase has a symbol. -/
theorem Reads.ne_nil {p : Phrase} {ts : List Symbol} {t : TypeTree} (h : Reads p ts t) (hp : p ≠ .members) :
    ts ≠ [] := by
  induction h with
  | operand _ ih => exact ih (by simp)
  | noMembers => exact absurd rfl hp
  | _ => simp

theorem not_isTypeText_empty : ¬ IsTypeText "" := by
  rintro ⟨t, ht⟩
  exact ht.ne_nil (by simp) rfl

theorem exists_reads_name {n : String} (h : isName n = true) : ∃ t, Reads .operand (symbols n) t := by
  have hword : wordType? n = some (if n = "null" then .null else .name n) := by
    rw [wordType?, pieces_name h]
  rw [symbols_name h]
  exact ⟨_, .word hword⟩

theorem isTypeText_name {n : String} (h : isName n = true) : IsTypeText n :=
  (exists_reads_name h).imp fun _ ht => .operand ht

theorem isTypeText_dotted {space n : String} (hspace : isName space = true) (hn : isName n = true) :
    IsTypeText (dotted space n) := by
  rw [IsTypeText, symbols_dotted hspace hn]
  exact ⟨_, .operand (.word (wordType?_dotted hspace hn))⟩

/-- Expressions for types are types. -/
theorem isTypeText_expression {type : FieldType} (h : isName type.name = true) (nullable : Bool) :
    IsTypeText (type.expression nullable).text := by
  obtain ⟨t, ht⟩ := exists_reads_name (isName_typeName h)
  rw [IsTypeText, FieldType.text_expression]
  exact ⟨_, (reads_wrap ht nullable type).1⟩

theorem IsTypeText.either {text n : String} (h : IsTypeText text) (hn : isName n = true) :
    IsTypeText (text ++ " | " ++ n) := by
  obtain ⟨t, ht⟩ := h
  obtain ⟨u, hu⟩ := exists_reads_name hn
  have htext : (text ++ " | " ++ n).toList = text.toList ++ ' ' :: '|' :: ' ' :: n.toList := by simp
  rw [IsTypeText, symbols, htext, scan_append (by decide), scan_blank, scan_mark (by decide) (by decide), scan_blank]
  exact ⟨_, .either ht hu⟩

/-- The names of a union are a type expression, unless there are none. -/
theorem isTypeText_joinWith_iff {names : List String} (h : ∀ n ∈ names, isName n = true) :
    IsTypeText (Text.joinWith " | " names) ↔ names ≠ [] := by
  have hfold {text : String} (htext : IsTypeText text) {names : List String} (h : ∀ n ∈ names, isName n = true) :
      IsTypeText (names.foldl (fun joined n => joined ++ " | " ++ n) text) := by
    induction names generalizing text with
    | nil => exact htext
    | cons n names ih =>
      rw [List.forall_mem_cons] at h
      exact ih (htext.either h.1) h.2
  cases names with
  | nil => exact iff_of_false not_isTypeText_empty (by simp)
  | cons n names =>
    rw [List.forall_mem_cons] at h
    exact iff_of_true (hfold (isTypeText_name h.1) h.2) (by simp)

/-! ### Statements -/

def spaceLine (declared : Bool) (name : String) : String :=
  (if declared then "export declare namespace " else "export namespace ") ++ name ++ " \x7b"

/-- The lines are statements and empty lines. -/
inductive Statements : List String → Prop
  | nil : Statements []
  | blank {ls : List String} (h : Statements ls) : Statements ("" :: ls)
  | type {name text : String} {ls : List String} (hname : isName name = true) (htext : IsTypeText text)
    (h : Statements ls) : Statements (("export type " ++ name ++ " = " ++ text ++ ";") :: ls)
  | enum {name : String} {values ls : List String} (hname : isName name = true)
    (hvalues : ∀ v ∈ values, isName v = true) (h : Statements ls) :
    Statements (("export enum " ++ name ++ " \x7b") ::
      (indent 2 (values.map fun v => v ++ " = '" ++ v ++ "',") ++ "\x7d" :: ls))
  | record {name : String} {members : List Member} {ls : List String} (hname : isName name = true)
    (hmembers : ∀ m ∈ members, isName m.name = true ∧ IsTypeText m.type) (h : Statements ls) :
    Statements (("export interface " ++ name ++ " \x7b") :: (indent 2 (members.map memberLine) ++ "\x7d" :: ls))
  | space (declared : Bool) {name : String} {body ls : List String} (hname : isName name = true)
    (hbody : Statements body) (h : Statements ls) :
    Statements (spaceLine declared name :: (indent 2 body ++ "\x7d" :: ls))

namespace Statements

variable {ls ms : List String} {name text : String}

theorem append (h : Statements ls) (h' : Statements ms) : Statements (ls ++ ms) := by
  induction h with
  | nil => exact h'
  | blank _ ih => exact .blank ih
  | type hname htext _ ih => exact .type hname htext ih
  | enum hname hvalues _ ih =>
    rw [List.cons_append, List.append_assoc, List.cons_append]
    exact .enum hname hvalues ih
  | record hname hmembers _ ih =>
    rw [List.cons_append, List.append_assoc, List.cons_append]
    exact .record hname hmembers ih
  | space declared hname hbody _ _ ih =>
    rw [List.cons_append, List.append_assoc, List.cons_append]
    exact .space declared hname hbody ih

theorem flatMap {α : Type} {f : α → List String} {xs : List α} (h : ∀ x ∈ xs, Statements (f x)) :
    Statements (xs.flatMap f) := by
  induction xs with
  | nil => exact .nil
  | cons x xs ih =>
    rw [List.forall_mem_cons] at h
    rw [List.flatMap_cons]
    exact h.1.append (ih h.2)

/-- The keyword tells the line from those of other statements. -/
theorem isTypeText_of_type (hname : isNameLike name = true)
    (h : Statements (("export type " ++ name ++ " = " ++ text ++ ";") :: ls)) : IsTypeText text := by
  generalize hline : "export type " ++ name ++ " = " ++ text ++ ";" = line at h
  have hfront := congrArg (·.toList.take 9) hline
  cases h with
  | blank => simp at hfront
  | type hname' htext =>
    obtain ⟨-, rfl⟩ := (typeLine_inj hname (isNameLike_of_isName hname')).mp hline
    exact htext
  | enum => simp at hfront
  | record => simp at hfront
  | space declared => cases declared <;> simp [spaceLine] at hfront

/-- The first line of an interface holds its name. -/
theorem isName_of_record (h : Statements (("export interface " ++ name ++ " \x7b") :: ls)) : isName name = true := by
  generalize hline : "export interface " ++ name ++ " \x7b" = line at h
  have hfront := congrArg (·.toList.take 9) hline
  cases h with
  | blank => simp at hfront
  | type => simp at hfront
  | enum => simp at hfront
  | record hname' =>
    rw [String.append_left_inj, String.append_right_inj] at hline
    rw [hline]
    exact hname'
  | space declared => cases declared <;> simp [spaceLine] at hfront

end Statements

end GraphDecl.TypeScript
