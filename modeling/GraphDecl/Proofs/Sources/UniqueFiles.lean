import GraphDecl.Proofs.Files.Searches
import GraphDecl.Proofs.Sources.Loading
import GraphDecl.Proofs.Text.LineBreaks
import Mathlib.Data.List.Nodup

/-!
The files that the patterns of a source find. Each path is named once, the patterns are kept in order, and so are the
paths of each. A file has as many paths as there are spellings of it, so that it is found once exactly if all its
spellings are one.
-/

namespace GraphDecl

open PathText

theorem Text.trim_sublist (s : List Char) : (Text.trim s).Sublist s :=
  (Text.trimRight_isPrefix _).sublist.trans (List.dropWhile_sublist _)

/-! ### What paths denote -/

/-- Paths denote different files exactly if they resolve to different paths. -/
theorem FileTree.nodup_denoted_iff (t : FileTree) (paths : List String) :
    (paths.filterMap t.denoted?).Nodup ↔
      ((paths.filter fun path => (t.denoted? path).isSome).map (PathText.resolve "/")).Nodup := by
  have hresolved : (paths.filter fun path => (t.denoted? path).isSome).map (PathText.resolve "/") =
      (paths.filterMap t.denoted?).map ofPlace := by
    induction paths with
    | nil => rfl
    | cons path paths ih =>
      cases hplace : t.denoted? path with
      | none => rw [List.filter_cons_of_neg (by simp [hplace]), List.filterMap_cons_none hplace, ih]
      | some place =>
        rw [List.filter_cons_of_pos (by simp [hplace]), List.filterMap_cons_some hplace, List.map_cons, List.map_cons,
          ih, FileTree.resolve_of_denoted? hplace]
  have hsteps : ∀ place ∈ paths.filterMap t.denoted?, ∀ name ∈ place, IsStep name := by
    intro place hplace
    obtain ⟨path, -, hpath⟩ := List.mem_filterMap.mp hplace
    exact FileTree.isStep_of_denoted? hpath
  rw [hresolved]
  constructor
  · intro hnodup
    rw [List.nodup_map_iff_inj_on hnodup]
    exact fun p hp q hq => (ofPlace_inj (hsteps p hp) (hsteps q hq)).mp
  · exact List.Nodup.of_map _

/-! ### Patterns that are plainly spelled -/

namespace Glob

variable {t : FileTree} {directoriesOnly : Bool} {names part : List String} {paths : List String} {c path : String}

/-- What a name of a pattern stands for are names, or `**` stands for the directory itself. -/
theorem StandsFor.isStep (hc : IsStep c) (h : StandsFor c part) :
    (∀ name ∈ part, IsStep name) ∨ isRecursive c = true ∧ part = [""] := by
  cases h with
  | literal => exact .inl (by simpa using hc)
  | directory recursive => exact .inr ⟨recursive, rfl⟩
  | below _ _ steps => exact .inl fun name hname => (steps name hname).toIsStep
  | name _ _ step => exact .inl (by simpa using step.toIsStep)

/-- A pattern without spare components finds paths of places. `**` at its end may leave a slash there. -/
theorem exists_ofPlace_of_mem_expand (ht : t.Proper) (hnames : ∀ name ∈ names, IsStep name)
    (h : expand t directoriesOnly (ofPlace names).toList = .ok paths) (hpath : path ∈ paths) :
    ∃ place, (∀ name ∈ place, IsStep name) ∧
      (path = ofPlace place ∨ isRecursive (names.getLast?.getD "") = true ∧ path = join (ofPlace place) "") := by
  induction names using List.reverseRecOn generalizing directoriesOnly paths path with
  | nil =>
    rw [expand_of_plain t directoriesOnly (by decide), Except.ok.injEq] at h
    subst h
    split at hpath
    · exact ⟨[], hnames, .inl (List.mem_singleton.mp hpath)⟩
    · cases hpath
  | append_singleton front last ih =>
    cases hwild : hasWildcard (ofPlace (front ++ [last])).toList with
    | false =>
      rw [expand_of_plain t directoriesOnly hwild, Except.ok.injEq] at h
      subst h
      split at hpath
      · exact ⟨_, hnames, .inl (by simpa using hpath)⟩
      · cases hpath
    | true =>
      rw [List.forall_mem_append, List.forall_mem_singleton] at hnames
      obtain ⟨dirs, dir, part, hdirs, hdir, hstands, rfl, -⟩ := exists_dir_of_mem_expand ht hwild h hpath
      rw [splitLast_ofPlace hnames.1 hnames.2.slash] at hdirs hstands
      rw [String.ofList_toList] at hstands
      have habsolute := hstands.isAbsolute hnames.2.slash
      have hdir : ∃ place, (∀ name ∈ place, IsStep name) ∧ (dir = ofPlace place ∨ dir = join (ofPlace place) "") := by
        unfold directories at hdirs
        split at hdirs
        · obtain ⟨place, hplace, hdir⟩ := ih hnames.1 hdirs hdir
          exact ⟨place, hplace, hdir.imp_right And.right⟩
        · cases hdirs
          exact ⟨front, hnames.1, .inl (by simpa using hdir)⟩
      obtain ⟨place, hplace, hdir⟩ := hdir
      have hjoin : join dir (Text.joinWith "/" part) = join (ofPlace place) (Text.joinWith "/" part) := by
        have hne : ofPlace place ≠ "" := fun heq => by simpa [ofPlace] using congrArg String.toList heq
        rcases hdir with rfl | rfl
        · rfl
        · exact join_join_empty hne habsolute
      rcases hstands.isStep hnames.2 with hpart | ⟨hrecursive, rfl⟩
      · refine ⟨place ++ part, List.forall_mem_append.mpr ⟨hplace, hpart⟩, .inl ?_⟩
        rw [hjoin, join_ofPlace hplace hpart hstands.ne_nil]
      · exact ⟨place, hplace, .inr ⟨by simpa using hrecursive, hjoin⟩⟩

/-- `**` is the last component of the pattern. -/
def EndsRecursive (pattern : String) : Prop := (components pattern).getLast? = some "**"

/-- The pattern is an absolute path without components to spare that does not end in `**`. -/
def PlainlySpelled (pattern : String) : Prop := PathText.resolve "/" pattern = pattern ∧ ¬ EndsRecursive pattern

/-- A plainly spelled pattern gives paths that are resolved already. -/
theorem resolve_of_mem_expand {pattern : String} (ht : t.Proper) (hplain : PlainlySpelled pattern)
    (h : expand t directoriesOnly pattern.toList = .ok paths) (hpath : path ∈ paths) :
    PathText.resolve "/" path = path := by
  obtain ⟨hself, hlast⟩ := hplain
  obtain ⟨names, hnames, rfl⟩ := resolve_root_eq_self_iff.mp hself
  obtain ⟨place, hplace, rfl | ⟨hrecursive, -⟩⟩ := exists_ofPlace_of_mem_expand ht hnames h hpath
  · exact resolve_root_eq_self_iff.mpr ⟨place, hplace, rfl⟩
  · refine absurd ?_ hlast
    rw [EndsRecursive, components_ofPlace hnames]
    cases names with
    | nil => cases hrecursive
    | cons name names =>
      rw [if_neg (by simp), List.getLast?_cons_cons, List.getLast?_eq_some_getLast (List.cons_ne_nil name names)]
      rw [List.getLast?_eq_some_getLast (List.cons_ne_nil name names), Option.getD_some, isRecursive,
        beq_iff_eq] at hrecursive
      rw [hrecursive]

/-- A path that is found leads somewhere, or `**` at the end of the pattern stands for a directory that is not there. -/
theorem exists_place_or_endsRecursive {pattern : String} (ht : t.Proper)
    (h : expand t directoriesOnly pattern.toList = .ok paths) (hpath : path ∈ paths) :
    (∃ place, t.denoted? path = some place) ∨ EndsRecursive pattern := by
  obtain ⟨k, -, hcomponents⟩ := components_splitLast pattern.toList
  have hlast : (components pattern).getLast? = some (String.ofList (splitLast pattern.toList).2) := by
    rw [String.ofList_toList] at hcomponents
    rcases hcomponents with ⟨-, hcomponents⟩ | hcomponents <;> simp [hcomponents]
  cases hrecursive : isRecursive (String.ofList (splitLast pattern.toList).2) with
  | false =>
    obtain ⟨place, hplace⟩ := exists_place_of_mem_expand ht h hrecursive hpath
    exact .inl ⟨place, FileTree.denoted?_eq_some_iff.mpr hplace⟩
  | true =>
    rw [isRecursive, beq_iff_eq] at hrecursive
    exact .inr (hlast.trans (congrArg some hrecursive))

end Glob

/-! ### The order of what is found -/

namespace Glob

theorem pairwise_sortTexts (paths : List String) : (sortTexts paths).Pairwise (· ≤ ·) := by
  have hsorted : (sortTexts paths).Pairwise fun a b => decide (a ≤ b) = true :=
    List.pairwise_mergeSort (by simpa using fun _ _ _ => String.le_trans) (by simpa using String.le_total) paths
  exact hsorted.imp fun h => by simpa using h

/-- Rows of sorted texts one after the other, each text where it first occurs. -/
theorem pairwise_firstOccurrences_of_mapM {α ε : Type} {f : α → Except ε (List String)} {xs : List α}
    {rows : List (List String)} (h : xs.mapM (fun x => sortTexts <$> f x) = .ok rows) :
    (firstOccurrences rows.flatten).Pairwise fun a b => ∃ front x back, xs = front ++ x :: back ∧
      (∃ row, f x = .ok row ∧ a ∈ row) ∧ (∀ y ∈ front, ∀ row, f y = .ok row → a ∉ row ∧ b ∉ row) ∧
      ∀ row, f x = .ok row → b ∈ row → a < b := by
  induction xs generalizing rows with
  | nil =>
    cases h
    exact .nil
  | cons x xs ih =>
    rw [List.mapM_cons] at h
    obtain ⟨_, hhead, h⟩ := bind_eq_ok_iff.mp h
    obtain ⟨rows, hrows, h⟩ := bind_eq_ok_iff.mp h
    obtain ⟨row, hrow, rfl⟩ := map_eq_ok_iff.mp hhead
    cases h
    have hmem (a : String) : a ∈ sortTexts row ↔ a ∈ row := List.mem_mergeSort
    rw [List.flatten_cons, firstOccurrences_append]
    refine List.pairwise_append.mpr ⟨?_, ?_, ?_⟩
    · have hsorted := (pairwise_sortTexts row).sublist (firstOccurrences_sublist _)
      have hstrict := hsorted.and (nodup_firstOccurrences (sortTexts row))
      refine hstrict.imp_of_mem fun {a b} ha _ hab => ?_
      refine ⟨[], x, xs, rfl, ⟨row, hrow, (hmem a).mp (mem_firstOccurrences.mp ha)⟩, (fun _ hy => nomatch hy), ?_⟩
      exact fun _ _ _ => lt_of_le_of_ne hab.1 hab.2
    · refine ((ih hrows).sublist List.filter_sublist).imp_of_mem ?_
      rintro a b ha hb ⟨front, y, back, rfl, hy, hfront, hlt⟩
      have hnew {c : String} (hc : c ∈ (firstOccurrences rows.flatten).filter (· ∉ sortTexts row)) : c ∉ row := by
        have := (List.mem_filter.mp hc).2
        simpa [hmem] using this
      refine ⟨x :: front, y, back, rfl, hy, List.forall_mem_cons.mpr ⟨fun row' hrow' => ?_, hfront⟩, hlt⟩
      rw [hrow] at hrow'
      cases hrow'
      exact ⟨hnew ha, hnew hb⟩
    · intro a ha b hb
      refine ⟨[], x, xs, rfl, ⟨row, hrow, (hmem a).mp (mem_firstOccurrences.mp ha)⟩, (fun _ hy => nomatch hy), ?_⟩
      intro row' hrow' hb'
      rw [hrow] at hrow'
      cases hrow'
      have hnew := (List.mem_filter.mp hb).2
      exact absurd hb' (by simpa [hmem] using hnew)

end Glob

/-! ### The paths of a source -/

namespace Source

variable {t : FileTree} {base source : String}

/-- The first pattern that finds one of the two paths finds this one, and the other one, if it does so, as a greater
text. -/
def Before (t : FileTree) (base source path other : String) : Prop :=
  ∃ front p back, patterns source = front ++ p :: back ∧ Finds t base p path ∧
    (∀ q ∈ front, ¬ Finds t base q path ∧ ¬ Finds t base q other) ∧ (Finds t base p other → path < other)

/-- Paths come in the order of the patterns, and sorted for each of them. -/
theorem pairwise_before {paths : List String} (h : Glob.paths t base source = .ok paths) :
    paths.Pairwise (Before t base source) := by
  rw [paths_eq_bind] at h
  obtain ⟨rows, hrows, h⟩ := bind_eq_ok_iff.mp h
  cases h
  refine (Glob.pairwise_firstOccurrences_of_mapM hrows).imp ?_
  rintro path other ⟨front, p, back, hpatterns, hpath, hfront, hlt⟩
  refine ⟨front, p, back, hpatterns, hpath, fun q hq => ⟨?_, ?_⟩, ?_⟩
  · rintro ⟨found, hfound, hmem⟩
    exact (hfront q hq found hfound).1 hmem
  · rintro ⟨found, hfound, hmem⟩
    exact (hfront q hq found hfound).2 hmem
  · rintro ⟨found, hfound, hmem⟩
    exact hlt found hfound hmem

theorem null_not_mem_withBase {p : String} (hbase : '\x00' ∉ base.toList) (hsource : '\x00' ∉ source.toList)
    (hp : p ∈ patterns source) : '\x00' ∉ (Glob.withBase base p).toList := by
  obtain ⟨piece, hpiece, rfl⟩ := List.mem_map.mp (List.mem_filter.mp hp).1
  refine Glob.null_not_mem_join hbase fun hnull => hsource (Text.mem_of_mem_splitAt hpiece ?_)
  rw [Text.trimmed, String.toList_ofList, String.toList_ofList] at hnull
  exact (Text.trim_sublist piece).mem hnull

end Source

end GraphDecl
