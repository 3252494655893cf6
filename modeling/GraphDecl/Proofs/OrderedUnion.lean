import Mathlib.Data.Finset.Insert
import Mathlib.Data.List.Nodup
import GraphDecl.Proofs.Imports

/-!
Merging as a union that keeps the order. The merged list is the only one that names the declared types of its groups
once each, by first occurrence; a single pass over the groups that remembers the names it has seen gives it, and merge
calls inside of merge calls give what one call on all their groups gives.
-/

namespace GraphDecl

theorem isScalarName_iff {n : String} :
    isScalarName n = true ↔ n ∈ ["Boolean", "Float", "String", "Int", "ID"] := by
  have hnames : ["Boolean", "Float", "String", "Int", "ID"] = Scalar.all.map Scalar.name := rfl
  simp [hnames, isScalarName, Scalar.ofName?]

/-! ### The list is determined -/

/-- Two lists of what is used are one list. -/
theorem ListsUsed.unique {used list list' : List String} (h : ListsUsed used list) (h' : ListsUsed used list') :
    list = list' := by
  have hperm : list.Perm list' := by
    rw [List.perm_ext_iff_of_nodup h.nodup h'.nodup]
    intro n
    rw [h.mem_iff, h'.mem_iff]
  apply hperm.eq_of_pairwise _ h.inOrder h'.inOrder
  intro a b _ _ hab hba
  omega

namespace Imports

/-! ### One pass over the names -/

/-- How far a pass over the names has come: the names it has seen, and those it has listed. -/
structure Scan where
  seen : Finset String
  listed : List String

/-- A name that has been seen is passed over, and so is that of a built-in scalar. -/
def Scan.visit (s : Scan) (n : String) : Scan :=
  if n ∈ s.seen ∨ isScalarName n = true then s else ⟨insert n s.seen, s.listed ++ [n]⟩

def Scan.visitGroup (s : Scan) (group : List String) : Scan := group.foldl visit s

/-- The pass over the groups, one after the other. -/
def scan (groups : List (List String)) : Scan := groups.foldl Scan.visitGroup ⟨∅, []⟩

/-- The names seen are those listed, and these are the declared types among the names that were visited. -/
structure Scan.Lists (s : Scan) (visited : List String) : Prop where
  mem_seen_iff : ∀ n, n ∈ s.seen ↔ n ∈ s.listed
  listed_eq : s.listed = ofUsed visited

theorem ofUsed_append_singleton (used : List String) (n : String) :
    ofUsed (used ++ [n]) =
      if n ∈ ofUsed used ∨ isScalarName n = true then ofUsed used else ofUsed used ++ [n] := by
  cases hscalar : isScalarName n with
  | true => simp [ofUsed, hscalar]
  | false =>
    by_cases hn : n ∈ used
    · simp [ofUsed, firstOccurrences_append, hscalar, hn]
    · simp [ofUsed, firstOccurrences_append, firstOccurrences_cons, hscalar, hn]

variable {s : Scan} {visited : List String}

/-- One name more, visited or left out as a scalar or a name seen before. -/
theorem Scan.Lists.visit (h : s.Lists visited) (n : String) : (s.visit n).Lists (visited ++ [n]) := by
  have hcond : n ∈ s.seen ∨ isScalarName n = true ↔ n ∈ ofUsed visited ∨ isScalarName n = true := by
    rw [h.mem_seen_iff, h.listed_eq]
  by_cases hskip : n ∈ s.seen ∨ isScalarName n = true
  · constructor
    · rw [Scan.visit, if_pos hskip]
      exact h.mem_seen_iff
    · rw [Scan.visit, if_pos hskip, ofUsed_append_singleton, if_pos (hcond.mp hskip), h.listed_eq]
  · constructor
    · intro m
      rw [Scan.visit, if_neg hskip, Finset.mem_insert, h.mem_seen_iff, List.mem_append, List.mem_singleton, or_comm]
    · rw [Scan.visit, if_neg hskip, ofUsed_append_singleton, if_neg (mt hcond.mpr hskip), h.listed_eq]

theorem Scan.Lists.visitGroup (h : s.Lists visited) (group : List String) :
    (s.visitGroup group).Lists (visited ++ group) := by
  induction group generalizing s visited with
  | nil => simpa [Scan.visitGroup] using h
  | cons n group ih => simpa [Scan.visitGroup] using ih (h.visit n)

theorem Scan.Lists.visitGroups (h : s.Lists visited) (groups : List (List String)) :
    (groups.foldl Scan.visitGroup s).Lists (visited ++ groups.flatten) := by
  induction groups generalizing s visited with
  | nil => simpa using h
  | cons group groups ih => simpa using ih (h.visitGroup group)

/-- The invariant holds at the end of the pass. -/
theorem lists_scan (groups : List (List String)) : (scan groups).Lists groups.flatten := by
  have hstart : (⟨∅, []⟩ : Scan).Lists [] := ⟨by simp, rfl⟩
  exact hstart.visitGroups groups

/-! ### Merge calls inside of merge calls -/

/-- A group of names that is given, or the outcome of a merge call on groups of either kind. -/
inductive Grouping
  | given (group : List String)
  | merged (parts : List Grouping)

namespace Grouping

/-- The names that a group comes to when all its merge calls are made. -/
def value : Grouping → List String
  | given group => group
  | merged parts => merge (parts.map value)

def groups : Grouping → List (List String)
  | given group => [group]
  | merged parts => parts.flatMap groups

@[simp] theorem value_given (group : List String) : (given group).value = group := by
  rw [value]

@[simp] theorem value_merged (parts : List Grouping) : (merged parts).value = merge (parts.map value) := by
  rw [value]

@[simp] theorem groups_given (group : List String) : (given group).groups = [group] := by
  rw [groups]

@[simp] theorem groups_merged (parts : List Grouping) : (merged parts).groups = parts.flatMap groups := by
  rw [groups]

@[simp] theorem value_comp_given : value ∘ given = id := by
  funext group
  simp

@[simp] theorem flatMap_groups_given (gs : List (List String)) : (gs.map given).flatMap groups = gs := by
  simp [List.flatMap_map]

end Grouping

theorem ofUsed_append_congr {as bs : List String} (h : ofUsed as = ofUsed bs) (cs : List String) :
    ofUsed (as ++ cs) = ofUsed (bs ++ cs) := by
  rw [← ofUsed_append_left, h, ofUsed_append_left]

/-- Parts that may be taken apart one by one, behind any names, may be taken apart all at once. -/
theorem ofUsed_append_values (parts : List Grouping)
    (h : ∀ p ∈ parts, ∀ front, ofUsed (front ++ p.value) = ofUsed (front ++ p.groups.flatten))
    (front : List String) :
    ofUsed (front ++ (parts.map Grouping.value).flatten) =
      ofUsed (front ++ (parts.flatMap Grouping.groups).flatten) := by
  induction parts generalizing front with
  | nil => rfl
  | cons p parts ih =>
    rw [List.forall_mem_cons] at h
    calc ofUsed (front ++ ((p :: parts).map Grouping.value).flatten)
        = ofUsed ((front ++ p.value) ++ (parts.map Grouping.value).flatten) := by simp
      _ = ofUsed ((front ++ p.value) ++ (parts.flatMap Grouping.groups).flatten) := ih h.2 _
      _ = ofUsed ((front ++ p.groups.flatten) ++ (parts.flatMap Grouping.groups).flatten) :=
          ofUsed_append_congr (h.1 front) _
      _ = ofUsed (front ++ ((p :: parts).flatMap Grouping.groups).flatten) := by simp

/-- Behind any names, the outcome of the calls counts as the names in all the groups. -/
theorem ofUsed_append_value : (g : Grouping) → (front : List String) →
    ofUsed (front ++ g.value) = ofUsed (front ++ g.groups.flatten)
  | .given group, front => by simp
  | .merged parts, front => by
    have hparts := ofUsed_append_values parts (fun p _ => ofUsed_append_value p) front
    rw [Grouping.value_merged, Grouping.groups_merged, merge_eq_ofUsed, ofUsed_append_right, hparts]

/-- However merge calls are put inside each other, they give what one call on all the groups gives. -/
theorem value_merged_eq (parts : List Grouping) :
    (Grouping.merged parts).value = merge (parts.flatMap Grouping.groups) := by
  have hparts := ofUsed_append_values parts (fun p _ => ofUsed_append_value p) []
  simpa [merge_eq_ofUsed] using hparts

/-- What has been merged can be merged as the lists it is made of. -/
theorem merge_merge_cons (gs hs : List (List String)) : merge (merge gs :: hs) = merge (gs ++ hs) := by
  have h := value_merged_eq (.merged (gs.map .given) :: hs.map .given)
  simpa using h

theorem merge_append_merge (gs hs : List (List String)) : merge (gs ++ [merge hs]) = merge (gs ++ hs) := by
  have h := value_merged_eq (gs.map .given ++ [.merged (hs.map .given)])
  simpa using h

/-! ### The laws of merging -/

/-- What the merged list holds, and in which order, says which list it is. -/
theorem eq_merge_iff {groups : List (List String)} {list : List String} :
    list = merge groups ↔ list.Nodup ∧
      (∀ n, n ∈ list ↔ (∃ group ∈ groups, n ∈ group) ∧ n ∉ ["Boolean", "Float", "String", "Int", "ID"]) ∧
      list.Pairwise fun m n => groups.flatten.idxOf m < groups.flatten.idxOf n := by
  have hmerged : ListsUsed groups.flatten (merge groups) := listsUsed_ofUsed groups.flatten
  have hused (n : String) : n ∈ groups.flatten ∧ isScalarName n = false ↔
      (∃ group ∈ groups, n ∈ group) ∧ n ∉ ["Boolean", "Float", "String", "Int", "ID"] := by
    rw [List.mem_flatten, ← isScalarName_iff, Bool.not_eq_true]
  constructor
  · rintro rfl
    exact ⟨hmerged.nodup, fun n => (hmerged.mem_iff n).trans (hused n), hmerged.inOrder⟩
  · intro h
    have hlist : ListsUsed groups.flatten list := ⟨fun n => (h.2.1 n).trans (hused n).symm, h.1, h.2.2⟩
    exact hlist.unique hmerged

/-- Merging is associative. -/
theorem merge_assoc (as bs cs : List String) : merge [merge [as, bs], cs] = merge [as, merge [bs, cs]] := by
  have hleft : merge [merge [as, bs], cs] = merge [as, bs, cs] := merge_merge_cons [as, bs] [cs]
  have hright : merge [as, merge [bs, cs]] = merge [as, bs, cs] := merge_append_merge [as] [bs, cs]
  rw [hleft, hright]

theorem merge_merge (gs : List (List String)) : merge [merge gs] = merge gs := by
  simpa using merge_merge_cons gs []

/-- Groups that come again add nothing. -/
theorem merge_append_self (gs : List (List String)) : merge (gs ++ gs) = merge gs := by
  have hself (ns : List String) : firstOccurrences (ns ++ ns) = firstOccurrences ns := by
    rw [firstOccurrences_append]
    simp
  simp [merge_eq_ofUsed, ofUsed, hself]

theorem merge_merge_self (gs : List (List String)) : merge [merge gs, merge gs] = merge gs :=
  (merge_append_self [merge gs]).trans (merge_merge gs)

theorem merge_nil_merge (gs : List (List String)) : merge [[], merge gs] = merge gs := by
  have hnil : merge [[], merge gs] = merge [merge gs] := by simp [merge_eq_ofUsed]
  rw [hnil, merge_merge]

theorem merge_merge_nil (gs : List (List String)) : merge [merge gs, []] = merge gs := by
  have hnil : merge [merge gs, []] = merge [merge gs] := by simp [merge_eq_ofUsed]
  rw [hnil, merge_merge]

/-- The merged list names what some group names and is no built-in scalar, each name once and in the order of the
first occurrences in the groups one after the other, and no other list does. It is the list of one pass that remembers
what it has seen. Merge calls inside of others, at whatever places and depths, give what one call on all the groups
gives, so that merging is associative; merging once more, with itself or with nothing, changes no merged list. -/
theorem merge_orderedUnion :
    (∀ groups list, list = merge groups ↔ list.Nodup ∧
      (∀ n, n ∈ list ↔ (∃ group ∈ groups, n ∈ group) ∧ n ∉ ["Boolean", "Float", "String", "Int", "ID"]) ∧
      list.Pairwise fun m n => groups.flatten.idxOf m < groups.flatten.idxOf n) ∧
    (∀ groups, merge groups = (scan groups).listed) ∧
    (∀ parts, (Grouping.merged parts).value = merge (parts.flatMap Grouping.groups)) ∧
    (∀ gs hs, merge (merge gs :: hs) = merge (gs ++ hs) ∧ merge (gs ++ hs) = merge (gs ++ [merge hs])) ∧
    (∀ as bs cs, merge [merge [as, bs], cs] = merge [as, merge [bs, cs]]) ∧
    (∀ gs, merge [merge gs] = merge gs ∧ merge [merge gs, merge gs] = merge gs) ∧
    ∀ gs, merge [[], merge gs] = merge gs ∧ merge [merge gs, []] = merge gs := by
  refine ⟨fun _ _ => eq_merge_iff, ?scan, value_merged_eq, ?absorbs, merge_assoc, ?idempotent, ?unit⟩
  case scan =>
    intro groups
    exact (lists_scan groups).listed_eq.symm
  case absorbs =>
    intro gs hs
    exact ⟨merge_merge_cons gs hs, (merge_append_merge gs hs).symm⟩
  case idempotent =>
    intro gs
    exact ⟨merge_merge gs, merge_merge_self gs⟩
  case unit =>
    intro gs
    exact ⟨merge_nil_merge gs, merge_merge_nil gs⟩

/-- Names in several groups, and built-in scalars between them. -/
example : merge [["Tag", "ID", "Date"], [], ["String", "Post", "Tag"]] = ["Tag", "Date", "Post"] := by
  decide

end Imports

end GraphDecl
