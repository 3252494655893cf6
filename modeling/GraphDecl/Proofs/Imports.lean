import Mathlib.Data.List.Basic
import GraphDecl.Imports
import GraphDecl.TypeExpression

/-!
Import lists. A list that is merged from merged lists, level by level, is the one that a single scan of
all names gives: each declared type once, where it is used first.
-/

namespace GraphDecl

/-! ### First occurrences -/

@[simp] theorem firstOccurrences_nil : firstOccurrences [] = [] := rfl

theorem firstOccurrences_cons (n : String) (ns : List String) :
    firstOccurrences (n :: ns) = n :: (firstOccurrences ns).filter (· ≠ n) := rfl

@[simp] theorem mem_firstOccurrences {n : String} {ns : List String} :
    n ∈ firstOccurrences ns ↔ n ∈ ns := by
  induction ns with
  | nil => rfl
  | cons m ns ih =>
    by_cases h : n = m
    · simp [firstOccurrences_cons, h]
    · simp [firstOccurrences_cons, h, ih]

theorem nodup_firstOccurrences (ns : List String) : (firstOccurrences ns).Nodup := by
  induction ns with
  | nil => exact List.nodup_nil
  | cons n ns ih =>
    rw [firstOccurrences_cons, List.nodup_cons]
    exact ⟨by simp, ih.filter _⟩

theorem firstOccurrences_sublist (ns : List String) : (firstOccurrences ns).Sublist ns := by
  induction ns with
  | nil => exact .slnil
  | cons n ns ih => exact (List.filter_sublist.trans ih).cons_cons n

/-- Keeping first occurrences and leaving out names can be exchanged. -/
theorem firstOccurrences_filter (p : String → Bool) (ns : List String) :
    firstOccurrences (ns.filter p) = (firstOccurrences ns).filter p := by
  induction ns with
  | nil => rfl
  | cons n ns ih =>
    cases h : p n with
    | true =>
      simp only [List.filter_cons, h, if_pos, firstOccurrences_cons, ih, List.filter_filter]
      congr 2
      funext m
      exact Bool.and_comm _ _
    | false =>
      have hn : ∀ m, (p m && decide (m ≠ n)) = p m := by
        intro m
        by_cases hm : m = n
        · simp [hm, h]
        · simp [hm]
      simp only [List.filter_cons, h, Bool.false_eq_true, if_false, firstOccurrences_cons, ih,
        List.filter_filter, hn]

/-- A name behind `as` counts only if `as` does not have it. -/
theorem firstOccurrences_append (as bs : List String) :
    firstOccurrences (as ++ bs) =
      firstOccurrences as ++ (firstOccurrences bs).filter (· ∉ as) := by
  induction as with
  | nil => simp [List.filter_eq_self.mpr]
  | cons a as ih =>
    simp only [List.cons_append, firstOccurrences_cons, ih, List.filter_append, List.filter_filter]
    congr 3
    funext m
    simp [not_or]

/-- Cutting down a part of a list first changes nothing. -/
theorem firstOccurrences_append_left (as bs : List String) :
    firstOccurrences (firstOccurrences as ++ bs) = firstOccurrences (as ++ bs) := by
  have hself : firstOccurrences (firstOccurrences as) = firstOccurrences as := by
    induction as with
    | nil => rfl
    | cons a as ih =>
      simp only [firstOccurrences_cons, firstOccurrences_filter, ih, List.filter_filter, Bool.and_self]
  simp only [firstOccurrences_append, hself, mem_firstOccurrences]

theorem firstOccurrences_append_right (as bs : List String) :
    firstOccurrences (as ++ firstOccurrences bs) = firstOccurrences (as ++ bs) := by
  have hself := firstOccurrences_append_left bs []
  simp only [List.append_nil] at hself
  simp only [firstOccurrences_append, hself]

/-! ### Merging -/

namespace Imports

/-- The list of the declared types among the names that are used. -/
def ofUsed (used : List String) : List String := firstOccurrences (used.filter (!isScalarName ·))

/-- Merging lists makes one list of them, from which the import list is made. -/
theorem merge_eq_ofUsed (groups : List (List String)) : merge groups = ofUsed groups.flatten := rfl

@[simp] theorem ofUsed_nil : ofUsed [] = [] := rfl

/-- An import list has all used names but those of built-in scalars. -/
theorem mem_ofUsed {n : String} {used : List String} :
    n ∈ ofUsed used ↔ n ∈ used ∧ isScalarName n = false := by
  simp [ofUsed]

theorem filter_ofUsed (used : List String) :
    (ofUsed used).filter (!isScalarName ·) = ofUsed used := by
  rw [List.filter_eq_self]
  intro n hn
  simp [(mem_ofUsed.mp hn).2]

/-- An import list in front counts like the names that it is made from. -/
theorem ofUsed_append_left (as bs : List String) : ofUsed (ofUsed as ++ bs) = ofUsed (as ++ bs) := by
  rw [ofUsed, List.filter_append, filter_ofUsed, ofUsed, firstOccurrences_append_left, ofUsed,
    List.filter_append]

theorem ofUsed_append_right (as bs : List String) : ofUsed (as ++ ofUsed bs) = ofUsed (as ++ bs) := by
  rw [ofUsed, List.filter_append, filter_ofUsed, ofUsed, firstOccurrences_append_right, ofUsed,
    List.filter_append]

/-- Merging the lists of several places gives the list of what is used at all of them. -/
theorem merge_map_ofUsed {α : Type} (used : α → List String) (places : List α) :
    merge (places.map fun x => ofUsed (used x)) = ofUsed (places.flatMap used) := by
  rw [merge_eq_ofUsed]
  -- a list that is cut down already may be taken in full again, in front and behind
  induction places with
  | nil => rfl
  | cons x xs ih =>
    rw [List.map_cons, List.flatten_cons, ofUsed_append_left, ← ofUsed_append_right, ih,
      ofUsed_append_right, List.flatMap_cons]

/-- Lists that are merged group by group first. -/
theorem merge_map_merge {α : Type} (groups : α → List (List String)) (places : List α) :
    merge (places.map fun x => merge (groups x)) = merge (places.flatMap groups) := by
  have h := merge_map_ofUsed (fun x => (groups x).flatten) places
  rw [merge_eq_ofUsed (places.flatMap groups), List.flatten_eq_flatMap, List.flatMap_assoc]
  simpa only [merge_eq_ofUsed, List.flatten_eq_flatMap] using h

theorem merge_map_singletons {α : Type} (name : α → String) (places : List α) :
    merge (places.map fun x => ofUsed [name x]) = ofUsed (places.map name) := by
  rw [merge_map_ofUsed fun x => [name x], List.map_eq_flatMap]

theorem merge_pair (as bs : List String) : merge [ofUsed as, ofUsed bs] = ofUsed (as ++ bs) := by
  simpa using merge_map_ofUsed id [as, bs]

end Imports

/-! ### What an import list is to hold -/

/-- `list` names the declared types among the names `used`, each of them once, in the order in which they
are used first. -/
structure ListsUsed (used list : List String) : Prop where
  mem_iff : ∀ n, n ∈ list ↔ n ∈ used ∧ isScalarName n = false
  nodup : list.Nodup
  inOrder : list.Pairwise fun a b => used.idxOf a < used.idxOf b

/-- Names stay in the order in which they first occur. -/
theorem pairwise_idxOf_firstOccurrences (ns : List String) :
    (firstOccurrences ns).Pairwise fun a b => ns.idxOf a < ns.idxOf b := by
  induction ns with
  | nil => exact .nil
  | cons n ns ih =>
    rw [firstOccurrences_cons, List.pairwise_cons]
    constructor
    · intro m hm
      have hne : m ≠ n := by simpa using (List.mem_filter.mp hm).2
      rw [List.idxOf_cons_self, List.idxOf_cons_ne _ hne.symm]
      omega
    · rw [List.pairwise_filter]
      refine ih.imp ?_
      intro a b hab ha hb
      have hna : a ≠ n := by simpa using ha
      have hnb : b ≠ n := by simpa using hb
      rw [List.idxOf_cons_ne _ hna.symm, List.idxOf_cons_ne _ hnb.symm]
      omega

/-- An import list has every declared type once, in the order of first uses. -/
theorem listsUsed_ofUsed (used : List String) : ListsUsed used (Imports.ofUsed used) := by
  constructor
  · intro n
    exact Imports.mem_ofUsed
  · exact nodup_firstOccurrences _
  · rw [Imports.ofUsed, firstOccurrences_filter]
    exact (pairwise_idxOf_firstOccurrences used).sublist List.filter_sublist

/-! ### Type expressions -/

namespace TypeExpression

@[simp] theorem imports_ofName (n : String) : (ofName n).imports = Imports.ofUsed [n] := rfl

@[simp] theorem imports_array (e : TypeExpression) : e.array.imports = e.imports := rfl

@[simp] theorem imports_orNullIf (nullable : Bool) (e : TypeExpression) :
    (e.orNullIf nullable).imports = e.imports := by
  cases nullable <;> rfl

end TypeExpression

theorem TypeRef.imports_expression (nullable : Bool) (t : TypeRef) :
    (t.expression nullable).imports = Imports.ofUsed [t.name] := by
  induction t generalizing nullable with
  | named n bang => simp [expression, name]
  | list t bang ih => simp [expression, name, ih]

theorem FieldType.imports_expression (nullable : Bool) (t : FieldType) :
    (t.expression nullable).imports = Imports.ofUsed [t.name] := by
  induction t generalizing nullable with
  | named n => simp [expression, name]
  | list t ih => simp [expression, name, ih]
  | nonNull t ih => exact ih false

end GraphDecl
