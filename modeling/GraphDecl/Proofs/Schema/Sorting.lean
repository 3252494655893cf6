import Mathlib.Data.List.Sort
import GraphDecl.Declaration

/-!
The types of a schema sorted for their declarations. Whatever types without a definition are among them, those with one
come out as they stand, or sorted by the weight of their kind while those of one kind stay as they stand.
-/

namespace GraphDecl

/-! ### Stable sorting -/

section

variable {α : Type} {r : α → α → Prop} [DecidableRel r]

theorem orderedInsert_eq_cons {a : α} {l : List α} (h : ∀ b ∈ l, r a b) : l.orderedInsert r a = a :: l := by
  cases l with
  | nil => rfl
  | cons b l => exact List.orderedInsert_cons_of_le r l (h b List.mem_cons_self)

/-- Whether an item is left out before it is inserted or afterwards makes no difference. -/
theorem filter_orderedInsert [IsTrans α r] {a : α} {l : List α} (h : l.Pairwise r) (p : α → Bool) :
    (l.orderedInsert r a).filter p = if p a then (l.filter p).orderedInsert r a else l.filter p := by
  induction l with
  | nil => exact List.filter_cons
  | cons b l ih =>
    obtain ⟨hb, hl⟩ := List.pairwise_cons.mp h
    by_cases hab : r a b
    · have hfront : ∀ c ∈ b :: l, r a c := by
        intro c hc
        rcases List.mem_cons.mp hc with rfl | hc
        · exact hab
        · exact IsTrans.trans a b c hab (hb c hc)
      rw [orderedInsert_eq_cons hfront, List.filter_cons,
        orderedInsert_eq_cons fun c hc => hfront c (List.mem_of_mem_filter hc)]
    · rw [List.orderedInsert_of_not_le r l hab, List.filter_cons, ih hl]
      cases hp : p b with
      | true =>
        rw [List.filter_cons_of_pos hp, if_pos rfl, List.orderedInsert_of_not_le r _ hab]
        split <;> rfl
      | false => rw [List.filter_cons_of_neg (by rw [hp]; decide), if_neg (by decide)]

/-- What is picked from a sorted list is what is picked first and sorted then. -/
theorem filter_insertionSort [Std.Total r] [IsTrans α r] (l : List α) (p : α → Bool) :
    (l.insertionSort r).filter p = (l.filter p).insertionSort r := by
  induction l with
  | nil => rfl
  | cons a l ih =>
    rw [List.insertionSort_cons, filter_orderedInsert (List.pairwise_insertionSort r l), ih, List.filter_cons]
    split <;> rfl

/-- Elements stay in their order unless they are sorted the other way. -/
theorem insertionSort_eq_of_pairwise {r' : α → α → Prop} [DecidableRel r'] {l : List α}
    (h : l.Pairwise fun a b => r a b ↔ r' a b) : l.insertionSort r = l.insertionSort r' := by
  induction l with
  | nil => rfl
  | cons a l ih =>
    obtain ⟨ha, hl⟩ := List.pairwise_cons.mp h
    rw [List.insertionSort_cons, List.insertionSort_cons, ih hl]
    have hinsert : ∀ m : List α, (∀ b ∈ m, r a b ↔ r' a b) → m.orderedInsert r a = m.orderedInsert r' a := by
      intro m hm
      induction m with
      | nil => rfl
      | cons b m ihm =>
        rw [List.forall_mem_cons] at hm
        simp only [List.orderedInsert_cons, hm.1, ihm hm.2]
    exact hinsert _ fun b hb => ha b ((List.mem_insertionSort r').mp hb)

end

/-! ### Types of a type map -/

variable {order : DisplayOrder}

/-- Keys are compared by their first parts, and by the second ones where these are equal. -/
theorem DisplayOrder.le_iff {m n : MappedType} : order.le m n = true ↔
    (m.sortKey order).1 < (n.sortKey order).1 ∨
      (m.sortKey order).1 = (n.sortKey order).1 ∧ (m.sortKey order).2 ≤ (n.sortKey order).2 := by
  simp only [DisplayOrder.le, Bool.or_eq_true, Bool.and_eq_true, decide_eq_true_eq, beq_iff_eq]

theorem le_asIs_iff {m n : MappedType} {p q : Nat} (hm : m.place = some p) (hn : n.place = some q) :
    DisplayOrder.asIs.le m n = true ↔ p ≤ q := by
  obtain ⟨t, _⟩ := m
  obtain ⟨u, _⟩ := n
  cases hm
  cases hn
  simp [DisplayOrder.le_iff, MappedType.sortKey]

theorem le_byKind_iff {m n : MappedType} (hm : m.place.isSome = true) (hn : n.place.isSome = true) :
    DisplayOrder.byKind.le m n = true ↔ m.type.content.kind.weight ≤ n.type.content.kind.weight := by
  obtain ⟨t, _ | p⟩ := m
  · cases hm
  · obtain ⟨u, _ | q⟩ := n
    · cases hn
    · simp [DisplayOrder.le_iff, MappedType.sortKey]

instance : Std.Total fun m n : MappedType => order.le m n = true := by
  constructor
  intro m n
  rw [DisplayOrder.le_iff, DisplayOrder.le_iff]
  omega

instance : IsTrans MappedType fun m n => order.le m n = true := by
  constructor
  intro l m n
  rw [DisplayOrder.le_iff, DisplayOrder.le_iff, DisplayOrder.le_iff]
  omega

/-- The sort is insertion sort, which is stable. -/
theorem sortMapped_eq_insertionSort (map : List MappedType) :
    sortMapped order map = map.insertionSort fun m n => order.le m n = true := by
  have hinsert (m : MappedType) (ns : List MappedType) :
      insertMapped order m ns = ns.orderedInsert (fun m n => order.le m n = true) m := by
    induction ns with
    | nil => rfl
    | cons n ns ih => rw [insertMapped, List.orderedInsert_cons, ih]
  rw [sortMapped, List.insertionSort, funext fun m => funext fun ns => hinsert m ns]

theorem filterMap_declared (map : List MappedType) :
    map.filterMap (·.declared?) = (map.filter (·.place.isSome)).map (·.type) := by
  induction map with
  | nil => rfl
  | cons m map ih =>
    obtain ⟨t, _ | place⟩ := m
    · exact ih
    · exact congrArg (t :: ·) ih

/-- Types without a definition make no difference. -/
theorem declared_sortMapped (map : List MappedType) :
    (sortMapped order map).filterMap (·.declared?) =
      ((map.filter (·.place.isSome)).insertionSort fun m n => order.le m n = true).map (·.type) := by
  rw [filterMap_declared, sortMapped_eq_insertionSort, filter_insertionSort]

/-- By their places, types that stand in order stay as they are. -/
theorem declared_sortMapped_asIs {map : List MappedType} (h : (map.filterMap (·.place)).Pairwise (· ≤ ·)) :
    (sortMapped .asIs map).filterMap (·.declared?) = map.filterMap (·.declared?) := by
  have hsorted : (map.filter (·.place.isSome)).Pairwise fun m n => DisplayOrder.asIs.le m n = true := by
    rw [List.pairwise_filterMap] at h
    rw [List.pairwise_filter]
    refine h.imp fun {m n} hle hm hn => ?_
    obtain ⟨place, hplace⟩ := Option.isSome_iff_exists.mp hm
    obtain ⟨place', hplace'⟩ := Option.isSome_iff_exists.mp hn
    exact (le_asIs_iff hplace hplace').mpr (hle _ hplace _ hplace')
  rw [declared_sortMapped, hsorted.insertionSort_eq, filterMap_declared]

/-- By kinds, the types with a definition are sorted by weight alone, wherever the others stand. -/
theorem declared_sortMapped_byKind (map : List MappedType) :
    (sortMapped .byKind map).filterMap (·.declared?) =
      (map.filterMap (·.declared?)).insertionSort fun t u => t.content.kind.weight ≤ u.content.kind.weight := by
  rw [declared_sortMapped, filterMap_declared]
  refine List.map_insertionSort _ _ _ _ fun m hm n hn => ?_
  exact le_byKind_iff (List.mem_filter.mp hm).2 (List.mem_filter.mp hn).2

/-! ### Types of a schema -/

variable {s : Schema}

/-- What is picked from the type map, if it is nothing of built-in types. -/
theorem filterMap_typeMap {β : Type} {f : MappedType → Option β} (h : ∀ t, f ⟨t, none⟩ = none) :
    s.typeMap.filterMap f = s.types.zipIdx.filterMap fun (t, place) => f ⟨t, some place⟩ := by
  have hbuiltin : (s.builtin.map fun t => (⟨t, none⟩ : MappedType)).filterMap f = [] := by
    rw [List.filterMap_map]
    exact List.filterMap_eq_nil_iff.mpr fun t _ => h t
  rw [Schema.typeMap, List.filterMap_append, hbuiltin, List.append_nil, List.filterMap_map]
  rfl

theorem declared_typeMap : s.typeMap.filterMap (·.declared?) = s.types := by
  rw [filterMap_typeMap fun _ => rfl]
  exact (congrFun List.filterMap_eq_map _).trans (List.zipIdx_map_fst 0 s.types)

theorem places_typeMap : s.typeMap.filterMap (·.place) = List.range s.types.length := by
  rw [filterMap_typeMap fun _ => rfl, List.range_eq_range']
  exact (congrFun List.filterMap_eq_map _).trans (List.zipIdx_map_snd 0 s.types)

theorem inOrder_asIs : s.inOrder .asIs = s.types := by
  refine (declared_sortMapped_asIs ?_).trans declared_typeMap
  rw [places_typeMap]
  exact List.pairwise_lt_range.imp Nat.le_of_lt

theorem inOrder_byKind : s.inOrder .byKind =
    s.types.insertionSort fun t u => t.content.kind.weight ≤ u.content.kind.weight := by
  rw [Schema.inOrder, declared_sortMapped_byKind, declared_typeMap]

/-- The order of declarations is an order of the types of the schema. -/
theorem perm_inOrder (s : Schema) (order : DisplayOrder) : (s.inOrder order).Perm s.types := by
  cases order with
  | asIs => exact .of_eq inOrder_asIs
  | byKind =>
    rw [inOrder_byKind]
    exact List.perm_insertionSort _ _

theorem mem_inOrder {t : NamedType} : t ∈ s.inOrder order ↔ t ∈ s.types := (perm_inOrder s order).mem_iff

end GraphDecl
