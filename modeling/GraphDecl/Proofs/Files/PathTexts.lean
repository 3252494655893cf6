import GraphDecl.Files.PathText
import GraphDecl.Proofs.Text.Pieces
import Mathlib.Data.List.Induction
import Mathlib.Data.List.TakeWhile
import Mathlib.Data.String.Basic

/-!
Texts of paths: put together from two, cut before the last component, written for a place. A path says no more than
its components, and the path of a place says the names that lead there.
-/

namespace GraphDecl

/-! ### Paths that are put together -/

namespace PathText

theorem components_ne_nil (p : String) : components p ≠ [] := Text.pieces_ne_nil '/' p

theorem components_eq_singleton {p : String} (h : '/' ∉ p.toList) : components p = [p] :=
  Text.pieces_eq_singleton h

/-- The components of two paths with a slash between them are those of both. -/
theorem components_append_slash (base p : String) :
    components (base ++ "/" ++ p) = components base ++ components p := by
  rw [String.append_assoc, components, Text.pieces_append base (t := p) (by simp)]
  rfl

theorem isAbsolute_iff {p : String} : isAbsolute p = true ↔ ∃ rest, p.toList = '/' :: rest := by
  rw [isAbsolute, beq_iff_eq, List.head?_eq_some_iff]

theorem isAbsolute_eq_false {p : String} (h : '/' ∉ p.toList) : isAbsolute p = false := by
  rw [Bool.eq_false_iff, ne_eq, isAbsolute_iff]
  rintro ⟨rest, hp⟩
  exact h (by simp [hp])

theorem exists_of_endsInSlash {p : String} (h : endsInSlash p = true) : ∃ front, p = front ++ "/" := by
  obtain ⟨front, hfront⟩ := List.getLast?_eq_some_iff.mp (beq_iff_eq.mp h)
  refine ⟨String.ofList front, ?_⟩
  rw [← String.toList_inj, hfront, String.toList_append, String.toList_ofList]
  rfl

@[simp] theorem endsInSlash_append_slash (p : String) : endsInSlash (p ++ "/") = true := by
  simp [endsInSlash]

@[simp] theorem join_empty_left (p : String) : join "" p = p := by
  unfold join
  split
  · rfl
  · simp

theorem join_of_endsInSlash {base p : String} (hp : isAbsolute p = false) (h : endsInSlash base = true) :
    join base p = base ++ p := by
  simp [join, hp, h]

/-- Joining puts a slash between a directory and a relative path. -/
theorem join_of_plain {base p : String} (hp : isAbsolute p = false) (hne : base ≠ "")
    (h : endsInSlash base = false) : join base p = base ++ "/" ++ p := by
  simp [join, hp, h, hne]

/-- A path that is put together: nothing is in front, or a slash separates the two parts. -/
theorem join_cases (base : String) {p : String} (hp : isAbsolute p = false) :
    base = "" ∧ join base p = p ∨
      (∃ front, base = front ++ "/" ∧ join base p = front ++ "/" ++ p) ∨
      base ≠ "" ∧ endsInSlash base = false ∧ join base p = base ++ "/" ++ p := by
  by_cases hempty : base = ""
  · subst hempty
    exact .inl ⟨rfl, join_empty_left p⟩
  · cases hslash : endsInSlash base with
    | true =>
      obtain ⟨front, rfl⟩ := exists_of_endsInSlash hslash
      exact .inr (.inl ⟨front, rfl, join_of_endsInSlash hp hslash⟩)
    | false => exact .inr (.inr ⟨hempty, rfl, join_of_plain hp hempty hslash⟩)

end PathText

/-! ### Paths from components -/

namespace Text

theorem joinWith_append (glue : String) {ts us : List String} (hts : ts ≠ []) (hus : us ≠ []) :
    joinWith glue (ts ++ us) = joinWith glue ts ++ glue ++ joinWith glue us := by
  induction ts with
  | nil => exact absurd rfl hts
  | cons t ts ih =>
    cases ts with
    | nil =>
      obtain ⟨u, us, rfl⟩ := List.exists_cons_of_ne_nil hus
      exact joinWith_cons_cons glue t u us
    | cons v ts =>
      rw [List.cons_append, List.cons_append, joinWith_cons_cons, ← List.cons_append, ih (List.cons_ne_nil v ts),
        joinWith_cons_cons]
      simp only [String.append_assoc]

end Text

namespace PathText

/-- Names without slashes are the components of the path that joins them. -/
theorem components_joinWith {names : List String} (hne : names ≠ []) (h : ∀ name ∈ names, '/' ∉ name.toList) :
    components (Text.joinWith "/" names) = names :=
  Text.pieces_joinWith rfl hne h

/-- And a path is its components with slashes between them. -/
theorem joinWith_components (p : String) : Text.joinWith "/" (components p) = p :=
  ((Text.pieces_eq_iff '/' rfl (components_ne_nil p)).mp rfl).2

theorem slash_not_mem_of_mem_components {p c : String} (h : c ∈ components p) : '/' ∉ c.toList :=
  Text.not_mem_of_mem_pieces h

theorem isAbsolute_of_components {p c : String} {cs : List String} (h : components p = c :: cs) (hc : c ≠ "") :
    isAbsolute p = false := by
  rw [Bool.eq_false_iff, ne_eq, isAbsolute_iff]
  rintro ⟨rest, hp⟩
  rw [components, Text.pieces, hp, Text.splitAt_mark, List.map_cons, List.cons.injEq] at h
  exact hc h.1.symm

theorem null_not_mem_joinWith {names : List String} (h : ∀ name ∈ names, '\x00' ∉ name.toList) :
    '\x00' ∉ (Text.joinWith "/" names).toList := by
  have hchars : ∀ name ∈ names, ∀ ch ∈ name.toList, ch ≠ '\x00' := by
    rintro name hname ch hch rfl
    exact h name hname hch
  exact fun hnull => Text.forall_mem_joinWith (by simp) hchars _ hnull rfl

/-- A path is no longer than the way that it is put together from. -/
theorem toList_join_sublist {base p : String} {front back : List String} (hp : isAbsolute p = false)
    (hfront : front ≠ []) (hback : back ≠ []) (hbase : base.toList.Sublist (Text.joinWith "/" front).toList)
    (hrest : p.toList.Sublist (Text.joinWith "/" back).toList) :
    (join base p).toList.Sublist (Text.joinWith "/" (front ++ back)).toList := by
  rw [Text.joinWith_append _ hfront hback, String.toList_append, String.toList_append]
  rcases join_cases base hp with ⟨rfl, hjoin⟩ | ⟨base, rfl, hjoin⟩ | ⟨-, -, hjoin⟩
  · rw [hjoin]
    exact hrest.trans (List.sublist_append_right _ _)
  · rw [hjoin, String.toList_append]
    exact (hbase.trans (List.sublist_append_left _ _)).append hrest
  · rw [hjoin, String.toList_append, String.toList_append]
    exact (hbase.append (List.Sublist.refl _)).append hrest

/-- A text from which characters are taken has no more bytes. -/
theorem utf8ByteSize_le_of_sublist {p q : String} (h : p.toList.Sublist q.toList) :
    p.utf8ByteSize ≤ q.utf8ByteSize := by
  simpa using String.utf8Len_le_of_sublist h

theorem toList_joinWith_replicate (k : Nat) {names : List String} (hne : names ≠ []) :
    (Text.joinWith "/" (List.replicate k "" ++ names)).toList =
      List.replicate k '/' ++ (Text.joinWith "/" names).toList := by
  induction k with
  | zero => rfl
  | succ k ih =>
    have happend := Text.joinWith_append "/" (List.cons_ne_nil "" [])
      (List.append_ne_nil_of_right_ne_nil (List.replicate k "") hne)
    rw [List.replicate_succ, List.cons_append, ← List.singleton_append, happend, String.toList_append,
      String.toList_append, ih]
    rfl

theorem toList_join_slashes (k : Nat) {p : String} (hp : isAbsolute p = false) :
    (join (String.ofList (List.replicate k '/')) p).toList = List.replicate k '/' ++ p.toList := by
  cases k with
  | zero => exact congrArg String.toList (join_empty_left p)
  | succ k =>
    rw [join_of_endsInSlash hp (by simp [endsInSlash, List.getLast?_replicate]), String.toList_append,
      String.toList_ofList]

end PathText

/-! ### The last component of a path -/

namespace PathText

/-- Every path is something, then slashes, and then its last component. -/
theorem exists_lastComponent (p : List Char) :
    ∃ bare k last, p = bare ++ List.replicate k '/' ++ last ∧ '/' ∉ last ∧ bare.getLast? ≠ some '/' ∧
      (bare = [] ∨ 0 < k) := by
  have hlast := List.takeWhile_append_dropWhile (p := (· ≠ '/')) (l := p.reverse)
  generalize hfront : p.reverse.dropWhile (· ≠ '/') = front at hlast
  have hslashes := List.takeWhile_append_dropWhile (p := (· == '/')) (l := front)
  have hreplicate : front.takeWhile (· == '/') = List.replicate (front.takeWhile (· == '/')).length '/' :=
    List.eq_replicate_of_mem fun c hc => by simpa using List.mem_takeWhile_imp hc
  refine ⟨(front.dropWhile (· == '/')).reverse, (front.takeWhile (· == '/')).length,
    (p.reverse.takeWhile (· ≠ '/')).reverse, ?_, ?_, ?_, ?_⟩
  · rw [← List.reverse_replicate, ← hreplicate, ← List.reverse_append, hslashes, ← List.reverse_append, hlast,
      List.reverse_reverse]
  · intro hslash
    simpa using List.mem_takeWhile_imp (List.mem_reverse.mp hslash)
  · rw [List.getLast?_reverse]
    intro hhead
    have := List.head?_dropWhile_not (· == '/') front
    simp [hhead] at this
  · rw [or_iff_not_imp_left, List.reverse_eq_nil_iff]
    intro hne
    cases front with
    | nil => exact absurd rfl hne
    | cons c rest =>
      have hc := List.head?_dropWhile_not (· ≠ '/') p.reverse
      rw [hfront] at hc
      have hc : c = '/' := by simpa using hc
      simp [hc]

/-- What stands in front, a run of slashes and the last component make up a path in one way. -/
theorem splitLast_append {bare last : List Char} {k : Nat} (hlast : '/' ∉ last) (hbare : bare.getLast? ≠ some '/')
    (hk : bare = [] ∨ 0 < k) :
    splitLast (bare ++ List.replicate k '/' ++ last) =
      (if bare.isEmpty then List.replicate k '/' else bare, last) := by
  have hlong : ∀ c ∈ last.reverse, decide (c ≠ '/') = true := by
    intro c hc
    rw [decide_eq_true_eq]
    rintro rfl
    exact hlast (List.mem_reverse.mp hc)
  have hfront : (List.replicate k '/' ++ bare.reverse).takeWhile (· ≠ '/') = [] := by
    rcases hk with rfl | hk
    · cases k <;> simp [List.replicate_succ]
    · obtain ⟨k, rfl⟩ := Nat.exists_eq_succ_of_ne_zero (Nat.pos_iff_ne_zero.mp hk)
      simp [List.replicate_succ]
  have hword : ((bare ++ List.replicate k '/' ++ last).reverse.takeWhile (· ≠ '/')).reverse = last := by
    rw [List.reverse_append, List.reverse_append, List.reverse_replicate,
      List.takeWhile_append_of_pos hlong, hfront, List.append_nil, List.reverse_reverse]
  have hslashes : ∀ c ∈ List.replicate k '/', (c == '/') = true := by simp
  have hstripped : ((bare ++ List.replicate k '/').reverse.dropWhile (· == '/')).reverse = bare := by
    rw [List.reverse_append, List.reverse_replicate,
      List.dropWhile_append_of_pos hslashes]
    cases hrev : bare.reverse with
    | nil => simpa using hrev.symm
    | cons c rest =>
      have hc : c ≠ '/' := by
        rintro rfl
        rw [List.getLast?_eq_head?_reverse, hrev] at hbare
        exact hbare rfl
      rw [List.dropWhile_cons_of_neg (by simpa using hc), ← hrev, List.reverse_reverse]
  have htake : (bare ++ List.replicate k '/' ++ last).take
      ((bare ++ List.replicate k '/' ++ last).length - last.length) = bare ++ List.replicate k '/' := by
    rw [List.length_append, Nat.add_sub_cancel, List.take_left]
  unfold splitLast
  dsimp only
  rw [hword, htake, hstripped]
  cases bare with
  | nil => rfl
  | cons c rest => rfl

theorem components_replicate (k : Nat) {last : List Char} (hlast : '/' ∉ last) :
    components (String.ofList (List.replicate k '/' ++ last)) = List.replicate k "" ++ [String.ofList last] := by
  rw [components, Text.pieces, String.toList_ofList]
  induction k with
  | zero => simp [Text.splitAt_eq_singleton hlast]
  | succ k ih =>
    rw [List.replicate_succ, List.cons_append, Text.splitAt_mark, List.map_cons, ih, List.replicate_succ]
    rfl

theorem components_slashes (k : Nat) :
    components (String.ofList (List.replicate k '/')) = List.replicate k "" ++ [""] := by
  have hslashes := components_replicate k (List.not_mem_nil (a := '/'))
  rwa [List.append_nil] at hslashes

/-- The components of a path are those of what is in front of its last slashes, idle ones between these slashes, and
the last one. -/
theorem components_splitLast (p : List Char) :
    ∃ k, '/' ∉ (splitLast p).2 ∧
      ((splitLast p).1 = List.replicate k '/' ∧
          components (String.ofList p) = List.replicate k "" ++ [String.ofList (splitLast p).2] ∨
        components (String.ofList p) = components (String.ofList (splitLast p).1) ++
          (List.replicate k "" ++ [String.ofList (splitLast p).2])) := by
  obtain ⟨bare, k, last, rfl, hlast, hbare, hk⟩ := exists_lastComponent p
  rw [splitLast_append hlast hbare hk]
  cases bare with
  | nil =>
    refine ⟨k, hlast, .inl ⟨rfl, ?_⟩⟩
    rw [List.nil_append, components_replicate k hlast]
  | cons c rest =>
    obtain ⟨k, rfl⟩ :=
      Nat.exists_eq_succ_of_ne_zero (Nat.pos_iff_ne_zero.mp (hk.resolve_left (List.cons_ne_nil c rest)))
    refine ⟨k, hlast, .inr ?_⟩
    rw [← components_replicate k hlast, List.isEmpty_cons, if_neg Bool.false_ne_true, List.replicate_succ]
    have hsplit := components_append_slash (String.ofList (c :: rest)) (String.ofList (List.replicate k '/' ++ last))
    rw [← hsplit]
    congr 1
    rw [← String.toList_inj]
    simp

/-- An ending without slashes is one of the last component. -/
theorem suffix_lastComponent_iff {ending front last : List Char} (hslash : '/' ∉ ending)
    (hfront : front = [] ∨ front.getLast? = some '/') : ending <:+ front ++ last ↔ ending <:+ last := by
  refine ⟨fun h => ?_, fun h => h.trans (List.suffix_append _ _)⟩
  rcases Nat.le_total ending.length last.length with hlength | hlength
  · exact List.suffix_of_suffix_length_le h (List.suffix_append _ _) hlength
  · obtain ⟨more, rfl⟩ := List.suffix_of_suffix_length_le (List.suffix_append front last) h hlength
    obtain ⟨before, hbefore⟩ := h
    rw [← List.append_assoc] at hbefore
    obtain rfl : before ++ more = front := List.append_cancel_right hbefore
    rcases List.eq_nil_or_concat' more with rfl | ⟨rest, c, rfl⟩
    · exact List.suffix_refl last
    · -- what is in front of the last component would end in a character of the ending
      rw [← List.append_assoc, List.getLast?_concat, Option.some.injEq] at hfront
      rcases hfront with hnil | rfl
      · simp at hnil
      · simp at hslash

/-- A path in front of its last component, which is the last of its components. -/
theorem exists_front_lastComponent (p : String) :
    ∃ front last cs, p.toList = front ++ last ∧ (front = [] ∨ front.getLast? = some '/') ∧
      components p = cs ++ [String.ofList last] := by
  obtain ⟨bare, k, last, hp, hlast, hbare, hk⟩ := exists_lastComponent p.toList
  obtain ⟨m, -, hcomponents⟩ := components_splitLast p.toList
  rw [String.ofList_toList, hp, splitLast_append hlast hbare hk] at hcomponents
  refine ⟨bare ++ List.replicate k '/', last, ?_⟩
  have hfront : bare ++ List.replicate k '/' = [] ∨ (bare ++ List.replicate k '/').getLast? = some '/' := by
    cases k with
    | zero =>
      rcases hk with rfl | hk
      · exact .inl rfl
      · omega
    | succ k =>
      rw [List.replicate_succ', ← List.append_assoc, List.getLast?_concat]
      exact .inr rfl
  rcases hcomponents with ⟨-, hcomponents⟩ | hcomponents
  · exact ⟨_, hp, hfront, hcomponents⟩
  · exact ⟨_, hp, hfront, by rw [hcomponents, List.append_assoc]⟩

/-- Slashes at the end add empty components. -/
theorem components_append_slashes (p : String) (k : Nat) :
    components (p ++ String.ofList (List.replicate k '/')) = components p ++ List.replicate k "" := by
  induction k with
  | zero => simp
  | succ k ih =>
    have hslash : p ++ String.ofList (List.replicate (k + 1) '/') =
        p ++ String.ofList (List.replicate k '/') ++ "/" ++ "" := by
      rw [← String.toList_inj]
      simp [List.replicate_succ']
    rw [hslash, components_append_slash, ih, List.replicate_succ', List.append_assoc]
    rfl

/-- Every path is something that does not end in a slash, and then slashes. -/
theorem exists_bare (p : List Char) :
    ∃ bare k, p = bare ++ List.replicate k '/' ∧ bare.getLast? ≠ some '/' := by
  obtain ⟨bare, k, last, hp, hlast, hbare, -⟩ := exists_lastComponent (p ++ ['/'])
  rcases List.eq_nil_or_concat' last with rfl | ⟨front, c, rfl⟩
  · rw [List.append_nil] at hp
    cases k with
    | zero =>
      rw [List.replicate_zero, List.append_nil] at hp
      rw [← hp, List.getLast?_concat] at hbare
      exact absurd rfl hbare
    | succ k =>
      rw [List.replicate_succ', ← List.append_assoc] at hp
      exact ⟨bare, k, (List.append_inj_left' hp rfl), hbare⟩
  · rw [← List.append_assoc] at hp
    obtain rfl : '/' = c := (List.append_inj_right' hp rfl |> List.cons.inj).1
    simp at hlast

/-- The directory that a file lies in is the one that it was put into, but for slashes at the end. -/
theorem exists_parent_join (base : String) {n : String} (hn : '/' ∉ n.toList) :
    ∃ k, base = parent (join base n) ++ String.ofList (List.replicate k '/') := by
  obtain ⟨bare, k, hbase, hbare⟩ := exists_bare base.toList
  have hends : base.toList.getLast? = some '/' ↔ 0 < k := by
    rw [hbase]
    cases k with
    | zero => simpa using hbare
    | succ k => simp [List.replicate_succ', ← List.append_assoc]
  rcases join_cases base (isAbsolute_eq_false hn) with ⟨rfl, hjoin⟩ | ⟨front, hfront, hjoin⟩ | ⟨hne, hslash, hjoin⟩
  · refine ⟨0, ?_⟩
    have hsplit : splitLast ([] ++ List.replicate 0 '/' ++ n.toList) = _ := splitLast_append hn (by simp) (.inl rfl)
    rw [List.nil_append, List.replicate_zero, List.nil_append] at hsplit
    rw [hjoin, parent, hsplit]
    rfl
  · have hk : 0 < k := hends.mp (by simp [hfront])
    have hpath : (join base n).toList = bare ++ List.replicate k '/' ++ n.toList := by
      rw [hjoin, ← hfront, String.toList_append, hbase]
    rw [parent, hpath, splitLast_append hn hbare (.inr hk)]
    cases bare with
    | nil => exact ⟨0, by rw [← String.toList_inj, hbase]; simp⟩
    | cons c rest => exact ⟨k, by rw [← String.toList_inj, hbase]; simp⟩
  · have hk : k = 0 := by
      by_contra hk
      have hlast := hends.mpr (Nat.pos_of_ne_zero hk)
      rw [endsInSlash, hlast] at hslash
      cases hslash
    subst hk
    rw [List.replicate_zero, List.append_nil] at hbase
    have hpath : (join base n).toList = bare ++ List.replicate 1 '/' ++ n.toList := by
      rw [hjoin, String.toList_append, String.toList_append, hbase]
      rfl
    have hne : bare ≠ [] := by
      rintro rfl
      exact hne (by simpa using hbase)
    rw [parent, hpath, splitLast_append hn hbare (.inr Nat.one_pos), if_neg (by simpa using hne)]
    exact ⟨0, by rw [← String.toList_inj, hbase]; simp⟩

end PathText

/-! ### Paths of places -/

namespace PathText

/-- A component that leads into a directory. -/
structure IsStep (name : String) : Prop where
  leads : isIdle name = false
  down : name ≠ ".."
  slash : '/' ∉ name.toList

variable {here place other names : List String} {p base : String}

theorem IsStep.ne_empty {name : String} (h : IsStep name) : name ≠ "" := by
  rintro rfl
  exact absurd h.leads (by decide)

theorem filter_of_steps (h : ∀ name ∈ names, IsStep name) : names.filter (!isIdle ·) = names := by
  rw [List.filter_eq_self]
  exact fun name hname => by simp [(h name hname).leads]

/-- Steps down are taken as they are written. -/
theorem walk_of_steps (h : ∀ name ∈ names, IsStep name) : walk here names = here ++ names := by
  induction names generalizing here with
  | nil => rw [walk, List.append_nil]
  | cons name names ih =>
    rw [List.forall_mem_cons] at h
    rw [walk, if_neg (by simpa using h.1.down), ih h.2, List.append_assoc, List.singleton_append]

theorem walk_append (here names others : List String) :
    walk here (names ++ others) = walk (walk here names) others := by
  induction names generalizing here with
  | nil => rfl
  | cons name names ih =>
    rw [List.cons_append, walk, walk]
    split
    · exact ih _
    · exact ih _

theorem walk_of_no_steps_back {names : List String} (h : ".." ∉ names) : walk here names = here ++ names := by
  induction names generalizing here with
  | nil => rw [walk, List.append_nil]
  | cons name names ih =>
    rw [List.mem_cons, not_or] at h
    rw [walk, if_neg (by simpa using Ne.symm h.1), ih h.2, List.append_assoc, List.singleton_append]

theorem mem_of_mem_walk {name : String} (h : name ∈ walk here names) : name ∈ here ∨ name ∈ names ∧ name ≠ ".." := by
  induction names generalizing here with
  | nil => exact .inl h
  | cons next names ih =>
    rw [walk] at h
    split at h
    · rcases ih h with hmem | ⟨hmem, hdown⟩
      · exact .inl (List.dropLast_subset _ hmem)
      · exact .inr ⟨List.mem_cons_of_mem _ hmem, hdown⟩
    · next hdown =>
      rcases ih h with hmem | ⟨hmem, hdown⟩
      · rcases List.mem_append.mp hmem with hmem | hmem
        · exact .inl hmem
        · obtain rfl := List.mem_singleton.mp hmem
          exact .inr ⟨List.mem_cons_self, by simpa using hdown⟩
      · exact .inr ⟨List.mem_cons_of_mem _ hmem, hdown⟩

theorem isStep_of_mem_parts {name : String} (h : name ∈ parts p) (hdown : name ≠ "..") : IsStep name := by
  obtain ⟨hmem, hleads⟩ := List.mem_filter.mp h
  exact ⟨by simpa using hleads, hdown, slash_not_mem_of_mem_components hmem⟩

/-- No `..` and no idle component is left in a way that has been walked. -/
theorem isStep_of_mem_walk {name : String} (h : name ∈ walk [] (parts p)) : IsStep name := by
  obtain ⟨hmem, hdown⟩ := (mem_of_mem_walk h).resolve_left List.not_mem_nil
  exact isStep_of_mem_parts hmem hdown

theorem isAbsolute_joinWith (h : ∀ name ∈ names, IsStep name) : isAbsolute (Text.joinWith "/" names) = false := by
  cases names with
  | nil => rfl
  | cons name names =>
    refine isAbsolute_of_components (components_joinWith (List.cons_ne_nil _ _) fun n hn => (h n hn).slash) ?_
    exact (h name List.mem_cons_self).ne_empty

theorem IsStep.endsInSlash {name : String} (h : IsStep name) : endsInSlash name = false := by
  rw [Bool.eq_false_iff]
  intro hends
  obtain ⟨front, rfl⟩ := exists_of_endsInSlash hends
  exact h.slash (by simp)

def ofPlace (place : List String) : String := "/" ++ Text.joinWith "/" place

theorem resolve_eq_ofPlace (base p : String) : resolve base p = ofPlace (walk [] (parts (join base p))) := rfl

/-- The path written for a place has its names as components, behind an empty one. -/
theorem components_ofPlace (h : ∀ name ∈ place, IsStep name) :
    components (ofPlace place) = "" :: (if place.isEmpty then [""] else place) := by
  have hcomponents := components_append_slash "" (Text.joinWith "/" place)
  rw [String.empty_append] at hcomponents
  rw [ofPlace, hcomponents]
  cases place with
  | nil => rfl
  | cons name names =>
    rw [components_joinWith (List.cons_ne_nil _ _) fun n hn => (h n hn).slash]
    rfl

theorem parts_ofPlace (h : ∀ name ∈ place, IsStep name) : parts (ofPlace place) = place := by
  rw [parts, components_ofPlace h, List.filter_cons_of_neg (by decide)]
  cases place with
  | nil => rfl
  | cons name names => exact filter_of_steps h

theorem null_not_mem_ofPlace (h : ∀ name ∈ place, '\x00' ∉ name.toList) : '\x00' ∉ (ofPlace place).toList := by
  rw [ofPlace, String.toList_append, List.mem_append, not_or]
  exact ⟨by decide, null_not_mem_joinWith h⟩

/-- Different places have different paths. -/
theorem ofPlace_inj (h : ∀ name ∈ place, IsStep name) (hother : ∀ name ∈ other, IsStep name) :
    ofPlace place = ofPlace other ↔ place = other := by
  refine ⟨fun heq => ?_, congrArg ofPlace⟩
  rw [← parts_ofPlace h, heq, parts_ofPlace hother]

theorem walk_parts_ofPlace (h : ∀ name ∈ place, IsStep name) : walk [] (parts (ofPlace place)) = place := by
  rw [parts_ofPlace h, walk_of_steps h, List.nil_append]

theorem join_of_isAbsolute (h : isAbsolute p = true) : join base p = p := if_pos h

theorem parts_slash (p : String) : parts ("/" ++ p) = parts p := by
  have hcomponents := components_append_slash "" p
  rw [String.empty_append] at hcomponents
  rw [parts, hcomponents]
  rfl

theorem parts_join_root (p : String) : parts (join "/" p) = parts p := by
  cases h : isAbsolute p with
  | true => rw [join_of_isAbsolute h]
  | false => rw [join_of_endsInSlash h rfl, parts_slash]

theorem resolve_root (p : String) : resolve "/" p = ofPlace (walk [] (parts p)) := by
  rw [resolve_eq_ofPlace, parts_join_root]

/-- Paths that stay as they are when they are resolved are those of places. -/
theorem resolve_root_eq_self_iff : resolve "/" p = p ↔ ∃ place, (∀ name ∈ place, IsStep name) ∧ p = ofPlace place := by
  constructor
  · intro h
    exact ⟨walk [] (parts p), fun _ => isStep_of_mem_walk, by rw [← resolve_root, h]⟩
  · rintro ⟨place, hplace, rfl⟩
    rw [resolve_root, walk_parts_ofPlace hplace]

/-- The path of a place below another one goes on from that one. -/
theorem ofPlace_append (hne : place ≠ []) (hnames : names ≠ []) :
    ofPlace (place ++ names) = ofPlace place ++ "/" ++ Text.joinWith "/" names := by
  rw [ofPlace, Text.joinWith_append "/" hne hnames, ofPlace]
  simp only [String.append_assoc]

theorem endsInSlash_append {q : String} (hq : q ≠ "") : endsInSlash (p ++ q) = endsInSlash q := by
  have hne : q.toList ≠ [] := by simpa using hq
  rw [endsInSlash, endsInSlash, String.toList_append, List.getLast?_append_of_ne_nil _ hne]

theorem endsInSlash_ofPlace (h : ∀ name ∈ place, IsStep name) (hne : place ≠ []) :
    endsInSlash (ofPlace place) = false := by
  obtain ⟨front, last, rfl⟩ := List.eq_nil_or_concat' place |>.resolve_left hne
  have hlast : IsStep last := h last (by simp)
  have hends : ∃ p, ofPlace (front ++ [last]) = p ++ last := by
    cases front with
    | nil => exact ⟨"/", rfl⟩
    | cons name front => exact ⟨_, ofPlace_append (List.cons_ne_nil _ _) (List.cons_ne_nil _ _)⟩
  obtain ⟨p, hp⟩ := hends
  rw [hp, endsInSlash_append hlast.ne_empty, hlast.endsInSlash]

/-- A place is reached from one that it lies below. -/
theorem join_ofPlace (hplace : ∀ name ∈ place, IsStep name) (hnames : ∀ name ∈ names, IsStep name) (hne : names ≠ []) :
    join (ofPlace place) (Text.joinWith "/" names) = ofPlace (place ++ names) := by
  cases place with
  | nil => exact join_of_endsInSlash (isAbsolute_joinWith hnames) (by decide)
  | cons name place =>
    have hslash := endsInSlash_ofPlace hplace (List.cons_ne_nil _ _)
    have hempty : ofPlace (name :: place) ≠ "" := by
      intro heq
      simpa [ofPlace] using congrArg String.toList heq
    rw [join_of_plain (isAbsolute_joinWith hnames) hempty hslash, ofPlace_append (List.cons_ne_nil _ _) hne]

theorem join_join_empty (hbase : base ≠ "") (hp : isAbsolute p = false) : join (join base "") p = join base p := by
  cases hslash : endsInSlash base with
  | true => rw [join_of_endsInSlash (p := "") rfl hslash, String.append_empty]
  | false =>
    rw [join_of_plain (p := "") rfl hbase hslash, String.append_empty, join_of_plain hp hbase hslash,
      join_of_endsInSlash hp (endsInSlash_append_slash base)]

theorem splitLast_ofPlace (h : ∀ name ∈ place, IsStep name) {last : String} (hlast : '/' ∉ last.toList) :
    splitLast (ofPlace (place ++ [last])).toList = ((ofPlace place).toList, last.toList) := by
  cases place with
  | nil =>
    have htext : (ofPlace ([] ++ [last])).toList = [] ++ List.replicate 1 '/' ++ last.toList := String.toList_append
    rw [htext, splitLast_append hlast (by simp) (.inl rfl)]
    rfl
  | cons name place =>
    have hbare : (ofPlace (name :: place)).toList.getLast? ≠ some '/' := by
      simpa [endsInSlash] using endsInSlash_ofPlace h (List.cons_ne_nil _ _)
    have htext : (ofPlace (name :: place ++ [last])).toList =
        (ofPlace (name :: place)).toList ++ List.replicate 1 '/' ++ last.toList := by
      rw [ofPlace_append (List.cons_ne_nil _ _) (List.cons_ne_nil _ _), String.toList_append, String.toList_append]
      rfl
    rw [htext, splitLast_append hlast hbare (.inr Nat.one_pos), if_neg (by simp [ofPlace])]

theorem exists_ofPlace_concat (place : List String) (last : String) :
    ∃ front, (ofPlace (place ++ [last])).toList = front ++ last.toList ∧ front.getLast? = some '/' := by
  cases place with
  | nil => exact ⟨['/'], by simp [ofPlace, Text.joinWith], rfl⟩
  | cons name place =>
    refine ⟨(ofPlace (name :: place)).toList ++ ['/'], ?_, List.getLast?_concat⟩
    rw [ofPlace_append (List.cons_ne_nil _ _) (List.cons_ne_nil _ _), String.toList_append, String.toList_append]
    rfl

/-- The parent of a place is the place without its last name. -/
theorem parent_ofPlace {place : List String} (h : ∀ name ∈ place, IsStep name) :
    parent (ofPlace place) = ofPlace place.dropLast := by
  rcases List.eq_nil_or_concat' place with rfl | ⟨front, last, rfl⟩
  · decide
  · rw [List.forall_mem_append, List.forall_mem_singleton] at h
    rw [parent, splitLast_ofPlace h.1 h.2.slash, List.dropLast_concat, String.ofList_toList]

theorem utf8ByteSize_dropLast_le (place : List String) :
    (ofPlace place.dropLast).utf8ByteSize ≤ (ofPlace place).utf8ByteSize := by
  rcases List.eq_nil_or_concat' place with rfl | ⟨front, last, rfl⟩
  · rfl
  · rw [List.dropLast_concat]
    cases front with
    | nil => simp [ofPlace, Text.joinWith]
    | cons name front =>
      rw [ofPlace_append (List.cons_ne_nil _ _) (List.cons_ne_nil _ _), String.utf8ByteSize_append,
        String.utf8ByteSize_append]
      omega

theorem foldl_join_root {place : List String} (h : ∀ name ∈ place, IsStep name) :
    place.foldl join "/" = ofPlace place := by
  induction place using List.reverseRecOn with
  | nil => rfl
  | append_singleton front last ih =>
    rw [List.forall_mem_append, List.forall_mem_singleton] at h
    have hjoin := join_ofPlace h.1 (List.forall_mem_singleton.mpr h.2) (List.cons_ne_nil last [])
    rw [List.foldl_append, ih h.1]
    exact hjoin

end PathText

/-! ### Normal form -/

namespace PathText

theorem parts_eq_nil_of_joinWith {p : String} (h : Text.joinWith "/" (parts p) = "") : parts p = [] := by
  cases hparts : parts p with
  | nil => rfl
  | cons c cs =>
    have hc : c ∈ parts p := by rw [hparts]; exact List.mem_cons_self
    have hidle := (List.mem_filter.mp hc).2
    rw [hparts] at h
    have hempty : c = "" := by
      cases cs with
      | nil => exact h
      | cons d cs =>
        rw [Text.joinWith_cons_cons] at h
        simp at h
    subst hempty
    cases hidle

/-- Without its idle components a path leads through the same ones. -/
theorem parts_joinWith_parts (p : String) : parts (Text.joinWith "/" (parts p)) = parts p := by
  cases hparts : parts p with
  | nil => decide
  | cons c cs =>
    have hslash : ∀ name ∈ c :: cs, '/' ∉ name.toList := by
      rw [← hparts]
      exact fun name hname => slash_not_mem_of_mem_components (List.mem_of_mem_filter hname)
    rw [parts, components_joinWith (List.cons_ne_nil c cs) hslash, ← hparts, parts, List.filter_filter]
    simp

/-- Nothing that leads somewhere is lost in normal form. -/
theorem parts_normal (p : String) : parts (normal p) = parts p := by
  have hnormal : normal p = if (rootText p ++ Text.joinWith "/" (parts p)).isEmpty then "."
      else rootText p ++ Text.joinWith "/" (parts p) := rfl
  rw [hnormal]
  split
  · next hempty =>
    have hjoined : Text.joinWith "/" (parts p) = "" := by
      rw [String.isEmpty_iff, String.append_eq_empty_iff] at hempty
      exact hempty.2
    rw [parts_eq_nil_of_joinWith hjoined]
    decide
  · unfold rootText
    split
    · rw [String.empty_append, parts_joinWith_parts]
    · rw [show "//" = "/" ++ "/" from rfl, String.append_assoc, parts_slash, parts_slash, parts_joinWith_parts]
    · rw [parts_slash, parts_joinWith_parts]

end PathText

end GraphDecl
