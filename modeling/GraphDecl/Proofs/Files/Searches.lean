import GraphDecl.Proofs.Files.Patterns

/-!
Searches. What a search finds leads to what the paths that fit its pattern lead to, and the other way round. A search
fails only for a path with a character of code 0.
-/

namespace GraphDecl

open PathText

/-- A path that is no longer than one that can be looked up can be looked up itself. -/
theorem FileTree.placeOf_of_sublist {t : FileTree} {p q : String} {place other : List String}
    (h : p.toList.Sublist q.toList) (hq : t.placeOf q = .ok other)
    (hfollow : t.follow [] (components p) = .ok place) : t.placeOf p = .ok place := by
  obtain ⟨hnull, hlong, -⟩ := placeOf_eq_ok_iff.mp hq
  exact placeOf_eq_ok_iff.mpr
    ⟨fun hmem => hnull (h.mem hmem), (utf8ByteSize_le_of_sublist h).trans hlong, hfollow⟩

/-! ### Below a directory -/

namespace Glob

theorem join_step {name rest : String} (h : IsEntryName name) (hrest : isAbsolute rest = false) :
    join name rest = name ++ "/" ++ rest := by
  refine join_of_plain hrest h.ne_empty ?_
  rw [Bool.eq_false_iff]
  intro hends
  obtain ⟨front, rfl⟩ := exists_of_endsInSlash hends
  exact h.slash (by simp)

theorem belowEntries_eq_flatMap (directoriesOnly : Bool) (entries : List (String × Node)) :
    belowEntries directoriesOnly entries = entries.flatMap fun entry =>
      if isHidden entry.1 || (directoriesOnly && !entry.2.isDirectory) then []
      else entry.1 :: (below directoriesOnly entry.2).map (join entry.1) := by
  induction entries with
  | nil => rfl
  | cons entry entries ih =>
    rw [List.flatMap_cons, ← ih]
    rfl

/-- What is below some entries: those that are not hidden, and what is below these. -/
theorem mem_belowEntries_iff {directoriesOnly : Bool} {entries : List (String × Node)} {path : String} :
    path ∈ belowEntries directoriesOnly entries ↔ ∃ name n, (name, n) ∈ entries ∧ isHidden name = false ∧
      (directoriesOnly = true → n.isDirectory = true) ∧
      (path = name ∨ ∃ rest ∈ below directoriesOnly n, path = join name rest) := by
  rw [belowEntries_eq_flatMap, List.mem_flatMap, Prod.exists]
  refine exists_congr fun name => exists_congr fun n => and_congr_right fun _ => ?_
  cases isHidden name <;> cases directoriesOnly <;> cases n.isDirectory <;> simp [eq_comm]

/-- Below a node is everything that visible names lead to. -/
theorem mem_below {directoriesOnly : Bool} {n : Node} (hn : ∀ entries, n = .directory entries → FileTree.Proper n)
    {path : String} :
    path ∈ below directoriesOnly n ↔ ∃ names m, names ≠ [] ∧ path = Text.joinWith "/" names ∧
      (∀ name ∈ names, isHidden name = false) ∧ n.at? names = some m ∧
      (directoriesOnly = true → m.isDirectory = true) := by
  induction n using Node.induction generalizing path with
  | file data =>
    simp only [below, List.not_mem_nil, false_iff, not_exists, not_and]
    rintro names m hne - - hm
    obtain ⟨name, names, rfl⟩ := List.exists_cons_of_ne_nil hne
    cases hm
  | directory entries ih =>
    have hproper := hn entries rfl
    have hbelow {name : String} {m : Node} (hm : (name, m) ∈ entries) (es : List (String × Node))
        (hes : m = .directory es) : FileTree.Proper m := by
      subst hes
      have hat : (Node.directory entries).at? [name] = some (.directory es) := by
        rw [Node.at?_cons, hproper.lookup_root.mpr hm]
        rfl
      exact hproper.below hat
    rw [below, mem_belowEntries_iff]
    constructor
    · rintro ⟨name, m, hm, hvisible, hdir, rfl | ⟨rest, hrest, rfl⟩⟩
      · refine ⟨[path], m, List.cons_ne_nil _ _, rfl, by simpa using hvisible, ?_, hdir⟩
        rw [Node.at?_cons, hproper.lookup_root.mpr hm]
        rfl
      · obtain ⟨names, k, hne, rfl, hnames, hk, hkdir⟩ := (ih (name, m) hm (hbelow hm)).mp hrest
        obtain ⟨next, names, rfl⟩ := List.exists_cons_of_ne_nil hne
        have hat : (Node.directory entries).at? (name :: next :: names) = some k := by
          rw [Node.at?_cons, hproper.lookup_root.mpr hm]
          exact hk
        have hsteps := hproper.entryNames hat
        rw [List.forall_mem_cons] at hsteps
        refine ⟨name :: next :: names, k, List.cons_ne_nil _ _, ?_, ?_, hat, hkdir⟩
        · rw [join_step hsteps.1 (isAbsolute_joinWith fun n hn => (hsteps.2 n hn).toIsStep),
            Text.joinWith_cons_cons]
        · exact List.forall_mem_cons.mpr ⟨hvisible, hnames⟩
    · rintro ⟨names, k, hne, rfl, hnames, hk, hkdir⟩
      obtain ⟨name, names, rfl⟩ := List.exists_cons_of_ne_nil hne
      have hsteps := hproper.entryNames hk
      rw [List.forall_mem_cons] at hsteps hnames
      obtain ⟨_, m, heq, hlookup, hk⟩ := Node.exists_entry_of_at? hk
      cases heq
      have hm := hproper.lookup_root.mp hlookup
      cases names with
      | nil =>
        cases hk
        exact ⟨name, _, hm, hnames.1, hkdir, .inl rfl⟩
      | cons next names =>
        refine ⟨name, m, hm, hnames.1, fun _ => ?_, .inr ⟨Text.joinWith "/" (next :: names), ?_, ?_⟩⟩
        · obtain ⟨es, -, rfl, -, -⟩ := Node.exists_entry_of_at? hk
          rfl
        · exact (ih (name, m) hm (hbelow hm)).mpr ⟨_, k, List.cons_ne_nil _ _, rfl, hnames.2, hk, hkdir⟩
        · rw [join_step hsteps.1 (isAbsolute_joinWith fun n hn => (hsteps.2 n hn).toIsStep),
            Text.joinWith_cons_cons]

/-! ### One component -/

variable {t : FileTree} {directoriesOnly : Bool} {dir c name : String} {names : List String}
  {here place part : List String}

theorem eq_append_of_follow (h : ∀ name ∈ names, IsEntryName name) (hfollow : t.follow here names = .ok place) :
    place = here ++ names := by
  have hsteps : ∀ name ∈ names, IsStep name := fun name hname => (h name hname).toIsStep
  rw [FileTree.eq_walk_of_follow hfollow, filter_of_steps hsteps, walk_of_steps hsteps]

theorem hasWildcard_of_isRecursive (h : isRecursive c = true) : hasWildcard c.toList = true := by
  rw [isRecursive, beq_iff_eq] at h
  subst h
  decide

theorem StandsFor.isAbsolute (h : StandsFor c part) (hc : '/' ∉ c.toList) :
    isAbsolute (Text.joinWith "/" part) = false := by
  cases h with
  | literal => exact isAbsolute_eq_false hc
  | directory => rfl
  | below _ _ steps => exact isAbsolute_joinWith fun n hn => (steps n hn).toIsStep
  | name _ _ step => exact isAbsolute_eq_false step.slash

/-- What a component stands for, read off what is found for it. It leads on from the directory, unless it is the
directory itself that `**` stands for. -/
theorem exists_part_of_mem_candidates (ht : t.Proper) (hc : '/' ∉ c.toList)
    (h : candidates t directoriesOnly dir c = .ok names) (hmem : name ∈ names) :
    ∃ part, StandsFor c part ∧ name = Text.joinWith "/" part ∧
      (isRecursive c = true ∧ part = [""] ∨
        ∃ here place, t.follow [] (components dir) = .ok here ∧ t.follow here part = .ok place) := by
  unfold candidates at h
  split at h
  · next hplain =>
    cases h
    refine ⟨[c], .literal (by simpa using hplain), ?_⟩
    unfold literal at hmem
    split at hmem
    · next hempty =>
      rw [String.isEmpty_iff] at hempty
      subst hempty
      split at hmem
      · next hdir =>
        obtain ⟨here, entries, hplace, hhere⟩ := FileTree.isDirectory_iff.mp hdir
        obtain ⟨-, -, hfollow⟩ := FileTree.placeOf_eq_ok_iff.mp hplace
        exact ⟨List.mem_singleton.mp hmem, .inr ⟨here, here, hfollow, FileTree.follow_slash entries hhere⟩⟩
      · cases hmem
    · split at hmem
      · next hexists =>
        obtain ⟨place, hplace⟩ := FileTree.exists?_iff.mp hexists
        obtain ⟨-, -, hfollow⟩ := FileTree.placeOf_eq_ok_iff.mp hplace
        rw [FileTree.follow_join ht.root _ (isAbsolute_eq_false hc), components_eq_singleton hc,
          bind_eq_ok_iff] at hfollow
        obtain ⟨here, hhere, hfollow⟩ := hfollow
        exact ⟨List.mem_singleton.mp hmem, .inr ⟨here, place, hhere, hfollow⟩⟩
      · cases hmem
  · next hwild =>
    rw [Bool.not_eq_true', Bool.not_eq_false] at hwild
    -- entries are listed only where there is a directory
    have hlisted {entries : List (String × Node)} (hentries : t.entries dir = .ok entries) (hne : entries ≠ []) :
        ∃ here, t.follow [] (components dir) = .ok here ∧ t.at? here = some (.directory entries) := by
      rcases FileTree.entries_eq_ok hentries with ⟨here, hplace, hhere⟩ | ⟨rfl, -⟩
      · exact ⟨here, (FileTree.placeOf_eq_ok_iff.mp hplace).2.2, hhere⟩
      · exact absurd rfl hne
    split at h
    · next hrecursive =>
      obtain ⟨entries, hentries, h⟩ := bind_eq_ok_iff.mp h
      cases h
      rcases List.mem_cons.mp hmem with rfl | hmem
      · exact ⟨[""], .directory hrecursive, rfl, .inl ⟨hrecursive, rfl⟩⟩
      · obtain ⟨here, hhere, hes⟩ := hlisted hentries (by rintro rfl; cases hmem)
        have hproper := ht.below hes
        have hbelow : name ∈ below directoriesOnly (.directory entries) := hmem
        obtain ⟨steps, m, hne, rfl, hvisible, hm, -⟩ := (mem_below fun _ _ => hproper).mp hbelow
        have hsteps := hproper.entryNames hm
        have hplace : (t.at? (here ++ steps)).isSome = true := by
          rw [Node.at?_append, hes, Option.bind_some, hm]
          rfl
        exact ⟨steps, .below hrecursive hne hsteps hvisible, rfl,
          .inr ⟨here, _, hhere, FileTree.follow_of_isSome hsteps hplace⟩⟩
    · next hsingle =>
      obtain ⟨entries, hentries, h⟩ := bind_eq_ok_iff.mp h
      cases h
      obtain ⟨hmem, hfits⟩ := List.mem_filter.mp hmem
      obtain ⟨⟨n, m⟩, hentry, rfl⟩ := List.mem_map.mp hmem
      obtain ⟨hentry, hseen⟩ := List.mem_filter.mp hentry
      rw [Bool.and_eq_true] at hseen
      obtain ⟨here, hhere, hes⟩ := hlisted hentries (List.ne_nil_of_mem hentry)
      have hname := ht.names hes _ hentry
      have hplace : (t.at? (here ++ [n])).isSome = true := by
        rw [FileTree.at?_concat hes, (ht.lookup hes).mpr hentry]
        rfl
      exact ⟨[n], .name hwild (by simpa using hsingle) hname hseen.1 hfits, rfl,
        .inr ⟨here, _, hhere, FileTree.follow_of_isSome (by simpa using hname) hplace⟩⟩

/-- What a component stands for is found if it leads on. -/
theorem joinWith_mem_candidates (ht : t.Proper) (h : candidates t directoriesOnly dir c = .ok names)
    (hdir : t.placeOf dir = .ok here) (hstands : StandsFor c part) (hfollow : t.follow here part = .ok place)
    (hpath : t.placeOf (join dir (Text.joinWith "/" part)) = .ok place)
    (hplace : directoriesOnly = true → ∃ entries, t.at? place = some (.directory entries)) :
    Text.joinWith "/" part ∈ names := by
  have hhere : ∃ entries, t.at? here = some (.directory entries) := by
    obtain ⟨first, rest, rfl⟩ := List.exists_cons_of_ne_nil hstands.ne_nil
    exact FileTree.exists_entries_of_follow hfollow
  obtain ⟨entries, hhere⟩ := hhere
  have hlisted {es : List (String × Node)} (hes : t.entries dir = .ok es) : es = entries := by
    rcases FileTree.entries_eq_ok hes with ⟨here', hhere', hes'⟩ | ⟨-, hnone⟩
    · rw [hdir] at hhere'
      cases hhere'
      rw [hhere] at hes'
      cases hes'
      rfl
    · exact absurd hhere (hnone here entries hdir)
  unfold candidates at h
  cases hstands with
  | literal plain =>
    rw [if_pos (by simp [plain])] at h
    cases h
    change c ∈ literal t dir c
    unfold literal
    split
    · rw [if_pos (FileTree.isDirectory_iff.mpr ⟨here, entries, hdir, hhere⟩)]
      exact List.mem_singleton_self c
    · have hexists : t.exists? (join dir c) = true := FileTree.exists?_iff.mpr ⟨place, hpath⟩
      rw [if_pos hexists]
      exact List.mem_singleton_self c
  | directory recursive =>
    rw [if_neg (by simp [hasWildcard_of_isRecursive recursive]), if_pos recursive] at h
    obtain ⟨es, -, h⟩ := bind_eq_ok_iff.mp h
    cases h
    exact List.mem_cons_self
  | below recursive some steps visible =>
    rw [if_neg (by simp [hasWildcard_of_isRecursive recursive]), if_pos recursive] at h
    obtain ⟨es, hes, h⟩ := bind_eq_ok_iff.mp h
    obtain rfl := hlisted hes
    cases h
    obtain rfl := eq_append_of_follow steps hfollow
    obtain ⟨m, hm⟩ := Option.isSome_iff_exists.mp
      (FileTree.isSome_of_follow (by rw [hhere]; rfl) hfollow)
    have hbelow : (Node.directory es).at? part = Option.some m := by
      rw [← hm, Node.at?_append, hhere, Option.bind_some]
    refine List.mem_cons_of_mem _ ?_
    refine (mem_below (n := .directory es) fun _ _ => ht.below hhere).mpr ⟨part, m, some, rfl, visible, hbelow, ?_⟩
    intro hd
    obtain ⟨entries, hentries⟩ := hplace hd
    rw [hm] at hentries
    cases hentries
    rfl
  | @name name wild single step visible fits =>
    rw [if_neg (by simp [wild]), if_neg (by simp [single])] at h
    obtain ⟨es, hes, h⟩ := bind_eq_ok_iff.mp h
    obtain rfl := hlisted hes
    cases h
    obtain rfl := eq_append_of_follow (by simpa using step) hfollow
    obtain ⟨m, hm⟩ := Option.isSome_iff_exists.mp
      (FileTree.isSome_of_follow (by rw [hhere]; rfl) hfollow)
    have hentry : (name, m) ∈ es := by
      rw [← ht.lookup hhere]
      rw [FileTree.at?_concat hhere] at hm
      simpa [Node.at?] using hm
    change name ∈ _
    refine List.mem_filter.mpr ⟨List.mem_map.mpr ⟨(name, m), List.mem_filter.mpr ⟨hentry, ?_⟩, rfl⟩, fits⟩
    rw [Bool.and_eq_true]
    refine ⟨visible, ?_⟩
    cases directoriesOnly with
    | false => rfl
    | true =>
      obtain ⟨entries, hentries⟩ := hplace rfl
      rw [hm] at hentries
      cases hentries
      rfl

/-! ### Whole patterns -/

variable {pattern : List Char} {paths : List String} {path : String}

theorem length_splitLast_lt (h : hasWildcard (splitLast pattern).1 = true) :
    (splitLast pattern).1.length < pattern.length := by
  obtain ⟨bare, k, last, rfl, hlast, hbare, hk⟩ := exists_lastComponent pattern
  rw [splitLast_append hlast hbare hk] at h ⊢
  cases bare with
  | nil => simp [hasWildcard] at h
  | cons b bare =>
    have hk := hk.resolve_left (List.cons_ne_nil b bare)
    simp only [List.isEmpty_cons, Bool.false_eq_true, if_false, List.length_append, List.length_replicate]
    omega

/-- A property of patterns without wildcards that others take over from what is in front of their last component. -/
theorem patternInduction {P : List Char → Prop} (plain : ∀ pattern, hasWildcard pattern = false → P pattern)
    (wild : ∀ pattern, hasWildcard pattern = true →
      (hasWildcard (splitLast pattern).1 = true → P (splitLast pattern).1) → P pattern)
    (pattern : List Char) : P pattern := by
  cases h : hasWildcard pattern with
  | false => exact plain pattern h
  | true => exact wild pattern h fun hfront => patternInduction plain wild (splitLast pattern).1
termination_by pattern.length
decreasing_by exact length_splitLast_lt hfront

theorem slash_not_mem_lastComponent (pattern : List Char) : '/' ∉ (String.ofList (splitLast pattern).2).toList := by
  obtain ⟨-, hlast, -⟩ := components_splitLast pattern
  rwa [String.toList_ofList]

/-- The directories that the last component of a pattern is looked for in, given what is in front of it. -/
def directories (t : FileTree) (front : List Char) : Except FileError (List String) :=
  if hasWildcard front then expand t true front else .ok [String.ofList front]

/-- A path without wildcards stands for itself, if something is there. -/
theorem expand_of_plain (t : FileTree) (directoriesOnly : Bool) (h : hasWildcard pattern = false) :
    expand t directoriesOnly pattern =
      .ok (if found t (String.ofList pattern) then [String.ofList pattern] else []) := by
  rw [expand, if_pos (by simp [h])]
  rfl

/-- With wildcards, the directories are searched first and then the last component in each of
them. -/
theorem expand_of_wild (t : FileTree) (directoriesOnly : Bool) (h : hasWildcard pattern = true) :
    expand t directoriesOnly pattern = directories t (splitLast pattern).1 >>= fun dirs =>
      List.flatten <$> dirs.mapM fun dir =>
        List.map (join dir) <$> candidates t directoriesOnly dir (String.ofList (splitLast pattern).2) := by
  rw [expand, if_neg (by simp [h])]
  simp only [map_eq_pure_bind]
  split
  · next hfront =>
    rw [directories, if_pos hfront.1]
  · next hfront =>
    rw [directories, if_neg fun hwild => hfront ⟨hwild, length_splitLast_lt hwild⟩]
    rfl

/-- What is found for a pattern with wildcards. -/
theorem exists_directories_of_expand (hwild : hasWildcard pattern = true)
    (h : expand t directoriesOnly pattern = .ok paths) :
    ∃ dirs, directories t (splitLast pattern).1 = .ok dirs ∧
      (∀ dir ∈ dirs, ∃ names, candidates t directoriesOnly dir (String.ofList (splitLast pattern).2) = .ok names) ∧
      ∀ path, path ∈ paths ↔ ∃ dir ∈ dirs, ∃ names,
        candidates t directoriesOnly dir (String.ofList (splitLast pattern).2) = .ok names ∧
        ∃ name ∈ names, join dir name = path := by
  rw [expand_of_wild t directoriesOnly hwild] at h
  obtain ⟨dirs, hdirs, h⟩ := bind_eq_ok_iff.mp h
  obtain ⟨found, hfound, rfl⟩ := map_eq_ok_iff.mp h
  refine ⟨dirs, hdirs, fun dir hdir => ?_, fun path => ?_⟩
  · obtain ⟨_, hpaths⟩ := exists_mapM_eq_ok_iff.mp ⟨found, hfound⟩ dir hdir
    obtain ⟨names, hnames, -⟩ := map_eq_ok_iff.mp hpaths
    exact ⟨names, hnames⟩
  · simp only [List.mem_flatten, mem_iff_of_mapM hfound, map_eq_ok_iff]
    constructor
    · rintro ⟨_, ⟨dir, hdir, names, hnames, rfl⟩, hpath⟩
      obtain ⟨name, hname, rfl⟩ := List.mem_map.mp hpath
      exact ⟨dir, hdir, names, hnames, name, hname, rfl⟩
    · rintro ⟨dir, hdir, names, hnames, name, hname, rfl⟩
      exact ⟨_, ⟨dir, hdir, names, hnames, rfl⟩, List.mem_map_of_mem hname⟩

/-- Every path that is found for a pattern with wildcards is put together from a directory and what the last component
stands for there. -/
theorem exists_dir_of_mem_expand (ht : t.Proper) (hwild : hasWildcard pattern = true)
    (h : expand t directoriesOnly pattern = .ok paths) (hpath : path ∈ paths) :
    ∃ dirs dir part, directories t (splitLast pattern).1 = .ok dirs ∧ dir ∈ dirs ∧
      StandsFor (String.ofList (splitLast pattern).2) part ∧ path = join dir (Text.joinWith "/" part) ∧
      (isRecursive (String.ofList (splitLast pattern).2) = true ∧ part = [""] ∨
        ∃ here place, t.follow [] (components dir) = .ok here ∧ t.follow here part = .ok place) := by
  obtain ⟨dirs, hdirs, -, hpaths⟩ := exists_directories_of_expand hwild h
  obtain ⟨dir, hdir, names, hnames, name, hname, rfl⟩ := (hpaths path).mp hpath
  obtain ⟨part, hstands, rfl, hleads⟩ :=
    exists_part_of_mem_candidates ht (slash_not_mem_lastComponent pattern) hnames hname
  exact ⟨dirs, dir, part, hdirs, hdir, hstands, rfl, hleads⟩

theorem follow_join_part {part : List String} (ht : t.Proper) (hc : '/' ∉ c.toList) (hstands : StandsFor c part)
    (dir : String) : t.follow [] (components (join dir (Text.joinWith "/" part))) =
      t.follow [] (components dir) >>= fun here => t.follow here part := by
  rw [FileTree.follow_join ht.root _ (hstands.isAbsolute hc),
    components_joinWith hstands.ne_nil (slash_not_mem_of_standsFor hc hstands)]

theorem plain_of_mem_components {p c : String} (h : hasWildcard p.toList = false) (hc : c ∈ components p) :
    hasWildcard c.toList = false := by
  obtain ⟨piece, hpiece, rfl⟩ := List.mem_map.mp hc
  simp only [hasWildcard, List.any_eq_false, String.toList_ofList] at h ⊢
  exact fun ch hch => h ch (Text.mem_of_mem_splitAt hpiece hch)

theorem found_iff : found t path = true ↔ ∃ place, t.placeOf path = .ok place := by
  unfold found
  split
  · next hslash =>
    rw [FileTree.isDirectory_iff]
    constructor
    · rintro ⟨place, entries, hplace, -⟩
      exact ⟨place, hplace⟩
    · rintro ⟨place, hplace⟩
      obtain ⟨front, rfl⟩ := exists_of_endsInSlash hslash
      obtain ⟨-, -, hfollow⟩ := FileTree.placeOf_eq_ok_iff.mp hplace
      have hcomponents : components (front ++ "/") = components front ++ [""] := by
        rw [← String.append_empty (s := front ++ "/"), components_append_slash]
        rfl
      rw [hcomponents, FileTree.follow_append, bind_eq_ok_iff] at hfollow
      obtain ⟨here, -, hlast⟩ := hfollow
      obtain ⟨entries, hentries⟩ := FileTree.exists_entries_of_follow hlast
      rw [FileTree.follow_slash entries hentries] at hlast
      cases hlast
      exact ⟨place, entries, hplace, hentries⟩
  · exact FileTree.exists?_iff

/-- What is found leads where paths lead that fit the pattern. -/
theorem leads_of_mem_expand (ht : t.Proper) (h : expand t directoriesOnly pattern = .ok paths) (hpath : path ∈ paths)
    (hfollow : t.follow [] (components path) = .ok place) : Leads t (components (String.ofList pattern)) [] place := by
  induction pattern using patternInduction generalizing directoriesOnly paths path place with
  | plain pattern hplain =>
    rw [expand_of_plain t directoriesOnly hplain, Except.ok.injEq] at h
    subst h
    split at hpath
    · rw [List.mem_singleton.mp hpath] at hfollow
      exact (leads_of_plain fun c hc => plain_of_mem_components (by simpa using hplain) hc).mpr hfollow
    · cases hpath
  | wild pattern hwild ih =>
    obtain ⟨dirs, dir, part, hdirs, hdir, hstands, rfl, -⟩ := exists_dir_of_mem_expand ht hwild h hpath
    obtain ⟨k, -, hcomponents⟩ := components_splitLast pattern
    rw [follow_join_part ht (slash_not_mem_lastComponent pattern) hstands, bind_eq_ok_iff] at hfollow
    obtain ⟨here, hhere, hfollow⟩ := hfollow
    have hfront : Leads t (components (String.ofList (splitLast pattern).1)) [] here := by
      unfold directories at hdirs
      split at hdirs
      · next hfront => exact ih hfront hdirs hdir hhere
      · next hfront =>
        cases hdirs
        rw [List.mem_singleton.mp hdir] at hhere
        exact (leads_of_plain fun c hc => plain_of_mem_components (by simpa using hfront) hc).mpr hhere
    have hback : Leads t [String.ofList (splitLast pattern).2] here place :=
      leads_singleton.mpr ⟨part, hstands, hfollow⟩
    rcases hcomponents with ⟨hslashes, hcomponents⟩ | hcomponents
    · rw [hcomponents, leads_replicate]
      rw [hslashes] at hfront
      obtain rfl := eq_nil_of_leads_slashes hfront
      exact hback
    · rw [hcomponents]
      exact leads_append.mpr ⟨here, hfront, leads_replicate.mpr hback⟩

/-- Where a path leads that fits the pattern and is not too long, something is found. -/
theorem exists_mem_expand {way : List String} (ht : t.Proper) (h : expand t directoriesOnly pattern = .ok paths)
    (hfits : Fits (components (String.ofList pattern)) way) (hplace : t.placeOf (Text.joinWith "/" way) = .ok place)
    (hdirectory : directoriesOnly = true → ∃ entries, t.at? place = some (.directory entries)) :
    ∃ path ∈ paths, t.placeOf path = .ok place ∧ path.toList.Sublist (Text.joinWith "/" way).toList := by
  induction pattern using patternInduction generalizing directoriesOnly paths way place with
  | plain pattern hplain =>
    rw [expand_of_plain t directoriesOnly hplain, Except.ok.injEq] at h
    rw [fits_of_plain fun c hc => plain_of_mem_components (by simpa using hplain) hc] at hfits
    rw [hfits, joinWith_components] at hplace ⊢
    rw [if_pos (found_iff.mpr ⟨place, hplace⟩)] at h
    subst h
    exact ⟨_, List.mem_singleton_self _, hplace, List.Sublist.refl _⟩
  | wild pattern hwild ih =>
    obtain ⟨dirs, hdirs, hnames, hpaths⟩ := exists_directories_of_expand hwild h
    obtain ⟨k, -, hcomponents⟩ := components_splitLast pattern
    have hlast := slash_not_mem_lastComponent pattern
    have hfollow := (FileTree.placeOf_eq_ok_iff.mp hplace).2.2
    rw [components_joinWith (hfits.ne_nil (components_ne_nil _))
      (slash_not_mem_of_fits (fun c hc => slash_not_mem_of_mem_components hc) hfits)] at hfollow
    -- it is enough to have the directory that the last component is looked for in
    have hfinish {dir : String} {here part : List String} (hdir : dir ∈ dirs) (hhere : t.placeOf dir = .ok here)
        (hstands : StandsFor (String.ofList (splitLast pattern).2) part) (hpart : t.follow here part = .ok place)
        (hshort : (join dir (Text.joinWith "/" part)).toList.Sublist (Text.joinWith "/" way).toList) :
        ∃ path ∈ paths, t.placeOf path = .ok place ∧ path.toList.Sublist (Text.joinWith "/" way).toList := by
      obtain ⟨names, hnames⟩ := hnames dir hdir
      have hpath : t.placeOf (join dir (Text.joinWith "/" part)) = .ok place := by
        refine FileTree.placeOf_of_sublist hshort hplace ?_
        rw [follow_join_part ht hlast hstands, (FileTree.placeOf_eq_ok_iff.mp hhere).2.2]
        exact hpart
      refine ⟨_, (hpaths _).mpr ⟨dir, hdir, names, hnames, _, ?_, rfl⟩, hpath, hshort⟩
      exact joinWith_mem_candidates ht hnames hhere hstands hpart hpath hdirectory
    rcases hcomponents with ⟨hslashes, hcomponents⟩ | hcomponents
    · rw [hcomponents] at hfits
      obtain ⟨part, rfl, hstands⟩ := fits_replicate.mp hfits
      rw [fits_singleton] at hstands
      rw [FileTree.follow_append_idle hstands.ne_nil] at hfollow
      rw [hslashes, directories, if_neg (by simp [hasWildcard])] at hdirs
      cases hdirs
      have hjoined := toList_joinWith_replicate k hstands.ne_nil
      refine hfinish (List.mem_singleton_self _) ?_ hstands hfollow ?_
      · obtain ⟨entries, hentries⟩ := ht.root
        refine FileTree.placeOf_of_sublist (q := Text.joinWith "/" (List.replicate k "" ++ part)) ?_ hplace ?_
        · rw [hjoined, String.toList_ofList]
          exact List.sublist_append_left _ _
        · rw [components_slashes, FileTree.follow_append_idle (List.cons_ne_nil _ _), hentries]
          exact FileTree.follow_slash entries rfl
      · rw [toList_join_slashes k (hstands.isAbsolute hlast), hjoined]
    · rw [hcomponents] at hfits
      obtain ⟨front, back, rfl, hfront, hback⟩ := fits_append.mp hfits
      obtain ⟨part, rfl, hstands⟩ := fits_replicate.mp hback
      rw [fits_singleton] at hstands
      rw [FileTree.follow_append, bind_eq_ok_iff] at hfollow
      obtain ⟨here, hhere, hpart⟩ := hfollow
      rw [FileTree.follow_append_idle hstands.ne_nil] at hpart
      have hne := hfront.ne_nil (components_ne_nil _)
      have hdir : ∃ dir ∈ dirs, t.placeOf dir = .ok here ∧ dir.toList.Sublist (Text.joinWith "/" front).toList := by
        have hshort : (Text.joinWith "/" front).toList.Sublist
            (Text.joinWith "/" (front ++ (List.replicate k "" ++ part))).toList := by
          rw [Text.joinWith_append _ hne (List.append_ne_nil_of_right_ne_nil _ hstands.ne_nil), String.toList_append,
            String.toList_append, List.append_assoc]
          exact List.sublist_append_left _ _
        have hplaceFront : t.placeOf (Text.joinWith "/" front) = .ok here := by
          refine FileTree.placeOf_of_sublist hshort hplace ?_
          rwa [components_joinWith hne
            (slash_not_mem_of_fits (fun c hc => slash_not_mem_of_mem_components hc) hfront)]
        unfold directories at hdirs
        split at hdirs
        · next hwildFront =>
          obtain ⟨first, rest, rfl⟩ := List.exists_cons_of_ne_nil hstands.ne_nil
          exact ih hwildFront hdirs hfront hplaceFront fun _ => FileTree.exists_entries_of_follow hpart
        · next hplainFront =>
          cases hdirs
          rw [fits_of_plain fun c hc => plain_of_mem_components (by simpa using hplainFront) hc] at hfront
          rw [hfront, joinWith_components] at hplaceFront ⊢
          exact ⟨_, List.mem_singleton_self _, hplaceFront, List.Sublist.refl _⟩
      obtain ⟨dir, hdir, hplaceDir, hshort⟩ := hdir
      refine hfinish hdir hplaceDir hstands hpart ?_
      refine toList_join_sublist (hstands.isAbsolute hlast) hne
        (List.append_ne_nil_of_right_ne_nil _ hstands.ne_nil) hshort ?_
      rw [toList_joinWith_replicate k hstands.ne_nil]
      exact List.sublist_append_right _ _

/-- Only `**` at the end of a pattern finds a path that leads nowhere. -/
theorem exists_place_of_mem_expand (ht : t.Proper) (h : expand t directoriesOnly pattern = .ok paths)
    (hlast : isRecursive (String.ofList (splitLast pattern).2) = false) (hpath : path ∈ paths) :
    ∃ place, t.follow [] (components path) = .ok place := by
  cases hwild : hasWildcard pattern with
  | false =>
    rw [expand_of_plain t directoriesOnly hwild, Except.ok.injEq] at h
    subst h
    split at hpath
    · next hfound =>
      rw [List.mem_singleton.mp hpath]
      obtain ⟨place, hplace⟩ := found_iff.mp hfound
      exact ⟨place, (FileTree.placeOf_eq_ok_iff.mp hplace).2.2⟩
    · cases hpath
  | true =>
    obtain ⟨-, dir, part, -, -, hstands, rfl, ⟨hrecursive, -⟩ | ⟨here, place, hhere, hplace⟩⟩ :=
      exists_dir_of_mem_expand ht hwild h hpath
    · rw [hlast] at hrecursive
      cases hrecursive
    · refine ⟨place, ?_⟩
      rw [follow_join_part ht (slash_not_mem_lastComponent pattern) hstands, hhere]
      exact hplace

theorem null_not_mem_of_standsFor (hc : '\x00' ∉ c.toList) (h : StandsFor c part) :
    ∀ name ∈ part, '\x00' ∉ name.toList := by
  cases h with
  | literal => simpa using hc
  | directory => simp
  | below _ _ steps => exact fun name hname => (steps name hname).null
  | name _ _ step => simpa using step.null

/-- The search for a component fails in no directory, if its path does not hold the character of
code 0. -/
theorem exists_candidates (t : FileTree) (directoriesOnly : Bool) (c : String) (hdir : '\x00' ∉ dir.toList) :
    ∃ names, candidates t directoriesOnly dir c = .ok names := by
  obtain ⟨entries, hentries⟩ := FileTree.exists_entries (t := t) hdir
  unfold candidates
  split
  · exact ⟨_, rfl⟩
  · split
    · exact ⟨_, bind_eq_ok_iff.mpr ⟨entries, hentries, rfl⟩⟩
    · exact ⟨_, bind_eq_ok_iff.mpr ⟨entries, hentries, rfl⟩⟩

theorem null_not_mem_join {base p : String} (hbase : '\x00' ∉ base.toList) (hp : '\x00' ∉ p.toList) :
    '\x00' ∉ (join base p).toList := by
  unfold join
  split
  · exact hp
  · split <;> simp [hbase, hp]

/-- A search comes to an end if its pattern has no character of code 0. -/
theorem exists_expand (ht : t.Proper) (directoriesOnly : Bool) (h : '\x00' ∉ pattern) :
    ∃ paths, expand t directoriesOnly pattern = .ok paths ∧ ∀ path ∈ paths, '\x00' ∉ path.toList := by
  induction pattern using patternInduction generalizing directoriesOnly with
  | plain pattern hplain =>
    refine ⟨_, expand_of_plain t directoriesOnly hplain, ?_⟩
    split
    · simpa using h
    · exact fun _ hpath => nomatch hpath
  | wild pattern hwild ih =>
    have hfront : '\x00' ∉ (splitLast pattern).1 ∧ '\x00' ∉ (splitLast pattern).2 := by
      obtain ⟨bare, k, last, rfl, hlast, hbare, hk⟩ := exists_lastComponent pattern
      rw [splitLast_append hlast hbare hk]
      simp only [List.mem_append, not_or] at h
      refine ⟨?_, h.2⟩
      dsimp only
      split
      · exact h.1.2
      · exact h.1.1
    have hdirs : ∃ dirs, directories t (splitLast pattern).1 = .ok dirs ∧ ∀ dir ∈ dirs, '\x00' ∉ dir.toList := by
      unfold directories
      split
      · next hwildFront => exact ih hwildFront true hfront.1
      · exact ⟨_, rfl, by simpa using hfront.1⟩
    obtain ⟨dirs, hdirs, hnull⟩ := hdirs
    have hfound : ∃ paths, expand t directoriesOnly pattern = .ok paths := by
      have hstep : ∀ dir ∈ dirs, ∃ found, List.map (join dir) <$>
          candidates t directoriesOnly dir (String.ofList (splitLast pattern).2) = .ok found := by
        intro dir hdir
        obtain ⟨names, hnames⟩ :=
          exists_candidates t directoriesOnly (String.ofList (splitLast pattern).2) (hnull dir hdir)
        exact ⟨_, map_eq_ok_iff.mpr ⟨names, hnames, rfl⟩⟩
      obtain ⟨found, hfound⟩ := exists_mapM_eq_ok_iff.mpr hstep
      rw [expand_of_wild t directoriesOnly hwild]
      exact ⟨found.flatten, bind_eq_ok_iff.mpr ⟨dirs, hdirs, map_eq_ok_iff.mpr ⟨found, hfound, rfl⟩⟩⟩
    obtain ⟨paths, hpaths⟩ := hfound
    refine ⟨paths, hpaths, fun path hpath => ?_⟩
    obtain ⟨dirs', dir, part, hdirs', hdir, hstands, rfl, -⟩ := exists_dir_of_mem_expand ht hwild hpaths hpath
    rw [hdirs] at hdirs'
    cases hdirs'
    exact null_not_mem_join (hnull dir hdir)
      (null_not_mem_joinWith (null_not_mem_of_standsFor (by simpa using hfront.2) hstands))

end Glob

end GraphDecl
