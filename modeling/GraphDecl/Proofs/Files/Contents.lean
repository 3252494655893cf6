import GraphDecl.Proofs.Files.Lookups

/-!
The files that a tree holds. What is put into a directory adds its files to those of the tree, or takes the place of
those that were there; directories that are made on the way hold none.
-/

namespace GraphDecl

open PathText

/-! ### Files below a node -/

namespace Node

variable {t n : Node} {here : List String} {entries : List (String × Node)} {c root : String}

/-- The files of an entry stand in one piece between those of the other entries. -/
theorem exists_entryFiles_setEntry (root c : String) (entries : List (String × Node)) :
    ∃ front back, entryFiles root entries = front ++ (entries.lookup c).elim [] (files (join root c)) ++ back ∧
      ∀ n, entryFiles root (setEntry c n entries) = front ++ files (join root c) n ++ back := by
  induction entries with
  | nil => exact ⟨[], [], rfl, fun n => by simp [setEntry, entryFiles]⟩
  | cons entry entries ih =>
    obtain ⟨m, old⟩ := entry
    by_cases hm : m = c
    · subst hm
      refine ⟨[], entryFiles root entries, ?_, fun n => ?_⟩
      · rw [lookup_cons, if_pos rfl]
        rfl
      · rw [setEntry, if_pos rfl]
        rfl
    · obtain ⟨front, back, hold, hnew⟩ := ih
      refine ⟨files (join root m) old ++ front, back, ?_, fun n => ?_⟩
      · rw [lookup_cons, if_neg (Ne.symm hm), entryFiles, hold]
        simp only [List.append_assoc]
      · rw [setEntry, if_neg hm, entryFiles, hnew]
        simp only [List.append_assoc]

/-- The files of what is put into a directory stand in one piece between those of the rest of the tree. -/
theorem exists_files_put (h : t.at? here = some (directory entries)) (c root : String) :
    ∃ front back,
      files root t = front ++ (entries.lookup c).elim [] (files ((here ++ [c]).foldl join root)) ++ back ∧
      ∀ n, files root (t.put (here ++ [c]) n) = front ++ files ((here ++ [c]).foldl join root) n ++ back := by
  induction here generalizing t root with
  | nil =>
    cases h
    obtain ⟨front, back, hold, hnew⟩ := exists_entryFiles_setEntry root c entries
    exact ⟨front, back, hold, hnew⟩
  | cons d here ih =>
    obtain ⟨es, child, rfl, hchild, hbelow⟩ := exists_entry_of_at? h
    obtain ⟨front, back, hold, hnew⟩ := exists_entryFiles_setEntry root d es
    obtain ⟨front', back', hold', hnew'⟩ := ih hbelow (join root d)
    refine ⟨front ++ front', back' ++ back, ?_, fun n => ?_⟩
    · rw [files, hold, hchild, Option.elim_some, hold']
      simp only [List.append_assoc, List.cons_append, List.foldl_cons]
    · rw [List.cons_append, put, hchild, Option.getD_some, files, hnew, hnew']
      simp only [List.append_assoc, List.foldl_cons]

/-- An entry that is set twice is what it was set to last. -/
theorem setEntry_setEntry (c : String) (n m : Node) (entries : List (String × Node)) :
    setEntry c m (setEntry c n entries) = setEntry c m entries := by
  induction entries with
  | nil => simp [setEntry]
  | cons entry entries ih =>
    obtain ⟨name, old⟩ := entry
    by_cases hname : name = c
    · rw [setEntry, if_pos hname, setEntry, if_pos hname, setEntry, if_pos hname]
    · rw [setEntry, if_neg hname, setEntry, if_neg hname, ih, setEntry, if_neg hname]

/-- What is put somewhere twice is what was put there last. -/
theorem put_put (h : t.at? here = some (directory entries)) (n m : Node) :
    (t.put (here ++ [c]) n).put (here ++ [c]) m = t.put (here ++ [c]) m := by
  induction here generalizing t with
  | nil =>
    cases h
    simp only [List.nil_append, put, setEntry_setEntry]
  | cons d here ih =>
    obtain ⟨es, child, rfl, hchild, hbelow⟩ := exists_entry_of_at? h
    rw [List.cons_append, put, put, put, lookup_setEntry, if_pos rfl, setEntry_setEntry, hchild, Option.getD_some,
      Option.getD_some, ih hbelow]

/-- Nothing appears beside what is put somewhere. -/
theorem isSome_of_put (h : t.at? here = some (directory entries)) {p : List String} (hp : ¬ here ++ [c] <+: p)
    (hsome : ((t.put (here ++ [c]) n).at? p).isSome = true) : (t.at? p).isSome = true := by
  induction here generalizing t p with
  | nil =>
    cases h
    cases p with
    | nil => rfl
    | cons d p =>
      have hd : d ≠ c := by
        rintro rfl
        exact hp ⟨p, rfl⟩
      rwa [List.nil_append, put, at?_cons, lookup_setEntry, if_neg hd, ← at?_cons] at hsome
  | cons e here ih =>
    obtain ⟨es, child, rfl, hchild, hbelow⟩ := exists_entry_of_at? h
    cases p with
    | nil => rfl
    | cons d p =>
      rw [List.cons_append, put, at?_cons, lookup_setEntry] at hsome
      by_cases hd : d = e
      · subst hd
        rw [if_pos rfl, hchild, Option.getD_some, Option.bind_some] at hsome
        rw [at?_cons, hchild, Option.bind_some]
        refine ih hbelow (fun hprefix => hp ?_) hsome
        rw [List.cons_append]
        exact List.prefix_cons_inj d |>.mpr hprefix
      · rwa [if_neg hd, ← at?_cons] at hsome

end Node

namespace FileTree

variable {t t' : FileTree} {here place q : List String} {entries : List (String × Node)} {c : String}

/-- Whatever is somewhere in the tree is called as entries are. -/
def Named (t : FileTree) : Prop := ∀ place, (t.at? place).isSome = true → ∀ name ∈ place, IsEntryName name

theorem Proper.named (h : t.Proper) : t.Named := by
  intro place hplace
  obtain ⟨n, hn⟩ := Option.isSome_iff_exists.mp hplace
  exact h.entryNames hn

/-- From `t` to `t'` directories have been made that lead to the place, and nothing else. -/
structure Grows (place : List String) (t t' : FileTree) : Prop where
  keeps : Keeps [] t t'
  files : Node.files "/" t' = Node.files "/" t
  way : ∀ p, (t'.at? p).isSome = true → (t.at? p).isSome = true ∨ p <+: place

theorem Grows.refl (place : List String) (t : FileTree) : Grows place t t := ⟨.refl t, rfl, fun _ => .inl⟩

/-- A tree that grows twice towards a place has grown towards it. -/
theorem Grows.trans {t'' : FileTree} (h : Grows place t t') (h' : Grows place t' t'') : Grows place t t'' := by
  refine ⟨h.keeps.trans h'.keeps, h'.files.trans h.files, fun p hp => ?_⟩
  rcases h'.way p hp with hp | hp
  · exact h.way p hp
  · exact .inr hp

theorem Grows.mono (h : Grows q t t') (hq : q <+: place) : Grows place t t' :=
  ⟨h.keeps, h.files, fun p hp => (h.way p hp).imp_right (List.IsPrefix.trans · hq)⟩

theorem grows_put_directory (h : t.at? here = some (.directory entries)) (hc : entries.lookup c = none) :
    Grows (here ++ [c]) t (t.put (here ++ [c]) (.directory [])) := by
  refine ⟨keeps_put_directory h hc, ?_, fun p hp => ?_⟩
  · obtain ⟨front, back, hold, hnew⟩ := Node.exists_files_put h c "/"
    rw [hnew, hold, hc]
    rfl
  · by_cases hprefix : here ++ [c] <+: p
    · obtain ⟨rest, rfl⟩ := hprefix
      rw [List.append_assoc, List.singleton_append, Node.at?_put_self h] at hp
      cases rest with
      | nil => exact .inr (by rw [List.append_nil])
      | cons d rest => cases hp
    · exact .inl (Node.isSome_of_put h hprefix hp)

/-! ### Looking up places -/

theorem components_ofPlace_of_ne_nil (hplace : ∀ name ∈ place, IsStep name) (hne : place ≠ []) :
    components (ofPlace place) = "" :: place := by
  rw [components_ofPlace hplace, if_neg (by simpa using hne)]

theorem follow_ofPlace (hroot : ∃ entries, t = .directory entries) (hplace : ∀ name ∈ place, IsStep name) :
    t.follow [] (components (ofPlace place)) = t.follow [] place := by
  obtain ⟨entries, rfl⟩ := hroot
  cases place with
  | nil =>
    rw [components_ofPlace hplace]
    exact follow_idle (by decide) ""
  | cons name place =>
    rw [components_ofPlace_of_ne_nil hplace (List.cons_ne_nil _ _), follow_idle (by decide)]

/-- The path written for a place leads there, if it is not too long and something is there. -/
theorem placeOf_ofPlace_iff (hroot : ∃ entries, t = .directory entries) (hnamed : t.Named)
    (hplace : ∀ name ∈ place, IsStep name) {there : List String} :
    t.placeOf (ofPlace place) = .ok there ↔
      (ofPlace place).utf8ByteSize ≤ longestPath ∧ (t.at? place).isSome = true ∧ there = place := by
  rw [placeOf_eq_ok_iff, follow_ofPlace hroot hplace]
  constructor
  · rintro ⟨-, hshort, hfollow⟩
    have hthere : there = place := by
      rw [eq_walk_of_follow hfollow, filter_of_steps hplace, walk_of_steps hplace]
      rfl
    subst hthere
    exact ⟨hshort, isSome_of_follow (t := t) rfl hfollow, rfl⟩
  · rintro ⟨hshort, hsome, rfl⟩
    have hnames := hnamed there hsome
    have hfollow : t.follow [] there = .ok ([] ++ there) := follow_of_isSome hnames hsome
    exact ⟨null_not_mem_ofPlace fun name hname => (hnames name hname).null, hshort, hfollow⟩

/-- Growing towards a place with good names keeps the names of a tree good. -/
theorem Grows.named (h : Grows place t t') (hnamed : t.Named) (hplace : ∀ name ∈ place, IsEntryName name) :
    t'.Named := by
  intro p hp
  rcases h.way p hp with hp | hp
  · exact hnamed p hp
  · exact fun name hname => hplace name (hp.subset hname)

theorem Grows.exists_root (h : Grows place t t') (hroot : ∃ entries, t = .directory entries) :
    ∃ entries, t' = .directory entries := by
  obtain ⟨entries, rfl⟩ := hroot
  obtain ⟨entries', hentries'⟩ := h.keeps.directories [] entries rfl
  exact ⟨entries', Option.some.inj hentries'⟩

theorem Named.put_file (hnamed : t.Named) (hhere : t.at? here = some (.directory entries)) (hc : IsEntryName c)
    (data : ByteArray) : FileTree.Named (t.put (here ++ [c]) (.file data)) := by
  intro p hp
  by_cases hprefix : here ++ [c] <+: p
  · obtain ⟨rest, rfl⟩ := hprefix
    rw [List.append_assoc, List.singleton_append, Node.at?_put_self hhere] at hp
    cases rest with
    | nil =>
      rw [List.append_nil]
      exact List.forall_mem_append.mpr ⟨hnamed here (by rw [hhere]; rfl), List.forall_mem_singleton.mpr hc⟩
    | cons d rest => cases hp
  · exact hnamed p (Node.isSome_of_put hhere hprefix hp)

/-- No file is in the way to the place. -/
def Clear (t : FileTree) (place : List String) : Prop := ∀ p, p <+: place → ∀ data, t.at? p ≠ some (.file data)

end FileTree

/-! ### Making directories -/

namespace FileAction

open FileTree

variable {t t' : FileTree} {here place cs : List String} {entries : List (String × Node)} {c : String} {x : Unit}

theorem makeDirectories_idle (hhere : t.at? here = some (.directory entries)) (hidle : isIdle c = true) :
    (makeDirectories here (c :: cs)).Succeeds t x t' ↔ (makeDirectories here cs).Succeeds t x t' := by
  rw [Succeeds, (DirectoryStep.idle hidle).run_eq hhere, Succeeds]

/-- Directories that could be made lead to the place, and their names are short enough. -/
theorem grows_of_makeDirectories (hnamed : t.Named) (hhere : t.at? here = some (.directory entries))
    (hcs : ∀ c ∈ cs, IsStep c ∧ '\x00' ∉ c.toList) (h : (makeDirectories here cs).Succeeds t x t') :
    Grows (here ++ cs) t t' ∧ (∃ es, t'.at? (here ++ cs) = some (.directory es)) ∧ ∀ c ∈ cs, IsEntryName c := by
  induction cs generalizing here t entries with
  | nil =>
    obtain ⟨-, rfl⟩ := succeeds_pure.mp h
    rw [List.append_nil]
    exact ⟨.refl _ _, ⟨entries, hhere⟩, fun _ hc => nomatch hc⟩
  | cons c cs ih =>
    rw [List.forall_mem_cons] at hcs
    obtain ⟨es, u, next, hes, hstep, hrest⟩ := succeeds_makeDirectories_cons.mp h
    rw [hhere] at hes
    cases hes
    rw [List.append_cons]
    cases hstep with
    | idle leads =>
      rw [hcs.1.1.leads] at leads
      cases leads
    | back leads up => exact absurd up hcs.1.1.down
    | @there inner leads down found =>
      have hnext : t.at? (here ++ [c]) = some (.directory inner) := by
        rw [at?_concat hhere, found]
        rfl
      obtain ⟨hgrows, hdir, hnames⟩ := ih hnamed hnext hcs.2 hrest
      exact ⟨hgrows, hdir, List.forall_mem_cons.mpr ⟨hnamed _ (by rw [hnext]; rfl) c (by simp), hnames⟩⟩
    | new leads down missing short =>
      have hname : IsEntryName c := ⟨hcs.1.1, short, hcs.1.2⟩
      have hput := grows_put_directory hhere missing
      have hnext : (t.put (here ++ [c]) (.directory [])).at? (here ++ [c]) = some (.directory []) :=
        Node.at?_put_self hhere []
      have hnamed' := hput.named hnamed <| List.forall_mem_append.mpr
        ⟨hnamed here (by rw [hhere]; rfl), List.forall_mem_singleton.mpr hname⟩
      obtain ⟨hgrows, hdir, hnames⟩ := ih hnamed' hnext hcs.2 hrest
      exact ⟨(hput.mono (List.prefix_append _ _)).trans hgrows, hdir, List.forall_mem_cons.mpr ⟨hname, hnames⟩⟩

/-- Directories can be made if no file is in the way. -/
theorem exists_makeDirectories (hhere : t.at? here = some (.directory entries)) (hcs : ∀ c ∈ cs, IsEntryName c)
    (hclear : t.Clear (here ++ cs)) : ∃ t', (makeDirectories here cs).Succeeds t () t' := by
  induction cs generalizing here t entries with
  | nil => exact ⟨t, succeeds_pure.mpr ⟨rfl, rfl⟩⟩
  | cons c cs ih =>
    rw [List.forall_mem_cons] at hcs
    rw [List.append_cons] at hclear
    cases hentry : entries.lookup c with
    | none =>
      have hput := grows_put_directory hhere hentry
      obtain ⟨t', ht'⟩ := ih (Node.at?_put_self hhere []) hcs.2 fun p hp data hdata =>
        hclear p hp data ((hput.keeps.files p List.not_mem_nil data).mp hdata)
      exact ⟨t', succeeds_makeDirectories_cons.mpr
        ⟨entries, _, _, hhere, .new hcs.1.leads hcs.1.down hentry hcs.1.short, ht'⟩⟩
    | some n =>
      have hnext : t.at? (here ++ [c]) = some n := by
        rw [at?_concat hhere, hentry]
        rfl
      cases n with
      | file data => exact absurd hnext (hclear (here ++ [c]) (List.prefix_append _ _) data)
      | directory inner =>
        obtain ⟨t', ht'⟩ := ih hnext hcs.2 hclear
        exact ⟨t', succeeds_makeDirectories_cons.mpr
          ⟨entries, _, _, hhere, .there hcs.1.leads hcs.1.down hentry, ht'⟩⟩

/-- Directories are made for the path of a place component by component, if the path is not too
long. -/
theorem makeDirectory_ofPlace_iff (hroot : ∃ entries, t = .directory entries) (hplace : ∀ name ∈ place, IsStep name) :
    (makeDirectory (ofPlace place)).Succeeds t x t' ↔ '\x00' ∉ (ofPlace place).toList ∧
      (ofPlace place).utf8ByteSize ≤ longestPath ∧ (makeDirectories [] place).Succeeds t x t' := by
  obtain ⟨entries, rfl⟩ := hroot
  have hcomponents : (makeDirectories [] (components (ofPlace place))).Succeeds (.directory entries) x t' ↔
      (makeDirectories [] place).Succeeds (.directory entries) x t' := by
    have hroot : (Node.directory entries).at? [] = some (.directory entries) := rfl
    cases place with
    | nil =>
      rw [components_ofPlace hplace]
      exact (makeDirectories_idle hroot (by decide)).trans (makeDirectories_idle hroot (by decide))
    | cons name place =>
      rw [components_ofPlace_of_ne_nil hplace (List.cons_ne_nil _ _)]
      exact makeDirectories_idle hroot (by decide)
  rw [makeDirectory, succeeds_bind]
  constructor
  · rintro ⟨cs, u, hlift, hmake⟩
    obtain ⟨hcs, rfl⟩ := succeeds_lift.mp hlift
    obtain ⟨hnull, hshort, rfl⟩ := componentsOf_eq_ok_iff.mp hcs
    exact ⟨hnull, hshort, hcomponents.mp hmake⟩
  · rintro ⟨hnull, hshort, hmake⟩
    exact ⟨_, _, succeeds_lift.mpr ⟨componentsOf_eq_ok_iff.mpr ⟨hnull, hshort, rfl⟩, rfl⟩, hcomponents.mpr hmake⟩

theorem null_not_mem_of_ofPlace (h : '\x00' ∉ (ofPlace place).toList) : ∀ name ∈ place, '\x00' ∉ name.toList := by
  intro name hname hnull
  obtain ⟨front, back, hjoin⟩ := Text.exists_joinWith_eq "/" hname
  exact h (by simp [ofPlace, hjoin, hnull])

/-- A directory that is made unless something is found there: it is there afterwards, and nothing else is new. -/
theorem grows_of_unless {found : Bool} (hroot : ∃ entries, t = .directory entries) (hnamed : t.Named)
    (hplace : ∀ name ∈ place, IsStep name) (hclear : t.Clear place)
    (hfound : found = true → ∃ there, t.placeOf (ofPlace place) = .ok there)
    (h : (unless found do makeDirectory (ofPlace place) : FileAction Unit).Succeeds t x t') :
    (ofPlace place).utf8ByteSize ≤ longestPath ∧ (∀ name ∈ place, IsEntryName name) ∧ Grows place t t' ∧
      ∃ es, t'.at? place = some (.directory es) := by
  cases found with
  | true =>
    obtain ⟨-, rfl⟩ := succeeds_pure.mp h
    obtain ⟨there, hthere⟩ := hfound rfl
    obtain ⟨hshort, hsome, rfl⟩ := (placeOf_ofPlace_iff hroot hnamed hplace).mp hthere
    refine ⟨hshort, hnamed _ hsome, .refl _ _, ?_⟩
    obtain ⟨n, hn⟩ := Option.isSome_iff_exists.mp hsome
    cases n with
    | file data => exact absurd hn (hclear _ (List.prefix_refl _) data)
    | directory es => exact ⟨es, hn⟩
  | false =>
    obtain ⟨hnull, hshort, hmake⟩ := (makeDirectory_ofPlace_iff hroot hplace).mp h
    obtain ⟨entries, rfl⟩ := hroot
    have hnull := null_not_mem_of_ofPlace hnull
    have hroot : (Node.directory entries).at? [] = some (.directory entries) := rfl
    obtain ⟨hgrows, hdir, hnames⟩ :=
      grows_of_makeDirectories hnamed hroot (fun c hc => ⟨hplace c hc, hnull c hc⟩) hmake
    exact ⟨hshort, hnames, hgrows, hdir⟩

theorem exists_unless (found : Bool) (hroot : ∃ entries, t = .directory entries)
    (hshort : (ofPlace place).utf8ByteSize ≤ longestPath) (hplace : ∀ name ∈ place, IsEntryName name)
    (hclear : t.Clear place) :
    ∃ t', (unless found do makeDirectory (ofPlace place) : FileAction Unit).Succeeds t () t' := by
  cases found with
  | true => exact ⟨t, succeeds_pure.mpr ⟨rfl, rfl⟩⟩
  | false =>
    have hsteps : ∀ name ∈ place, IsStep name := fun name hname => (hplace name hname).toIsStep
    have hmake : ∃ t', (makeDirectories [] place).Succeeds t () t' := by
      obtain ⟨entries, rfl⟩ := hroot
      have hat : (Node.directory entries).at? [] = some (.directory entries) := rfl
      exact exists_makeDirectories hat hplace hclear
    obtain ⟨t', ht'⟩ := hmake
    exact ⟨t', (makeDirectory_ofPlace_iff hroot hsteps).mpr
      ⟨null_not_mem_ofPlace fun name hname => (hplace name hname).null, hshort, ht'⟩⟩

/-! ### Writing files -/

/-- A file is written into a directory that is there, unless there is a directory of its name. -/
theorem writeBytes_ofPlace_iff {data : ByteArray} (hnamed : t.Named) (hhere : t.at? here = some (.directory entries))
    (hc : IsStep c) :
    (writeBytes (ofPlace (here ++ [c])) data).Succeeds t x t' ↔
      (ofPlace (here ++ [c])).utf8ByteSize ≤ longestPath ∧ IsEntryName c ∧
        (∀ es, entries.lookup c ≠ some (.directory es)) ∧ t' = t.put (here ++ [c]) (.file data) := by
  have hnames : ∀ name ∈ here, IsEntryName name := hnamed here (by rw [hhere]; rfl)
  have hsteps : ∀ name ∈ here ++ [c], IsStep name :=
    List.forall_mem_append.mpr ⟨fun name hname => (hnames name hname).toIsStep, List.forall_mem_singleton.mpr hc⟩
  have hcomponents := components_ofPlace_of_ne_nil hsteps (List.append_ne_nil_of_right_ne_nil _ (List.cons_ne_nil c []))
  have hfront : t.follow [] (components (ofPlace (here ++ [c]))).dropLast = .ok here := by
    obtain ⟨es, hes⟩ : ∃ es, t.at? [] = some (.directory es) := by
      cases here with
      | nil => exact ⟨entries, hhere⟩
      | cons d here =>
        obtain ⟨es, child, rfl, -, -⟩ := Node.exists_entry_of_at? hhere
        exact ⟨es, rfl⟩
    rw [hcomponents, ← List.cons_append, List.dropLast_concat]
    cases here with
    | nil => exact follow_slash es hes
    | cons d here =>
      rw [follow_idle (by decide)]
      have hfollow : t.follow [] (d :: here) = .ok ([] ++ d :: here) :=
        follow_of_isSome hnames (by rw [List.nil_append, hhere]; rfl)
      exact hfollow
  have hlast : (components (ofPlace (here ++ [c]))).getLast?.getD "" = c := by
    rw [hcomponents, ← List.cons_append, List.getLast?_concat, Option.getD_some]
  rw [succeeds_writeBytes]
  constructor
  · rintro ⟨_, there, es, _, hcs, hthere, hes, rfl, -, -, hlong, hfree, rfl⟩
    obtain ⟨hnull, hshort, rfl⟩ := componentsOf_eq_ok_iff.mp hcs
    rw [hfront] at hthere
    cases hthere
    rw [hhere] at hes
    cases hes
    rw [hlast] at hlong hfree ⊢
    exact ⟨hshort, ⟨hc, hlong, null_not_mem_of_ofPlace hnull _ (by simp)⟩, hfree, rfl⟩
  · rintro ⟨hshort, hname, hfree, rfl⟩
    have hnull : '\x00' ∉ (ofPlace (here ++ [c])).toList :=
      null_not_mem_ofPlace <| List.forall_mem_append.mpr
        ⟨fun name hname => (hnames name hname).null, List.forall_mem_singleton.mpr hname.null⟩
    exact ⟨_, here, entries, c, componentsOf_eq_ok_iff.mpr ⟨hnull, hshort, rfl⟩, hfront, hhere, hlast.symm, hc.leads,
      hc.down, hname.short, hfree, rfl⟩

/-- A file that was written is written over. -/
theorem writeBytes_again_iff {old data : ByteArray} (hnamed : t.Named) (hhere : t.at? here = some (.directory entries))
    (hc : IsEntryName c) :
    (writeBytes (ofPlace (here ++ [c])) data).Succeeds (t.put (here ++ [c]) (.file old)) x t' ↔
      (ofPlace (here ++ [c])).utf8ByteSize ≤ longestPath ∧ t' = t.put (here ++ [c]) (.file data) := by
  have hself := Node.at?_put_self (c := c) (n := .file old) hhere []
  obtain ⟨es, hes⟩ := (Node.at?_put_of_not_prefix (c := c) (n := .file old) (p := here) hhere fun hprefix => by
    have hlength := hprefix.length_le
    rw [List.length_append, List.length_singleton] at hlength
    omega).2 entries hhere
  rw [writeBytes_ofPlace_iff (hnamed.put_file hhere hc old) hes hc.toIsStep, Node.put_put hhere]
  refine ⟨fun h => ⟨h.1, h.2.2.2⟩, fun h => ⟨h.1, hc, fun dirs hdirs => ?_, h.2⟩⟩
  rw [at?_concat hes, hdirs] at hself
  cases hself

/-- The root is no file that could be written. -/
theorem not_succeeds_writeBytes_root {data : ByteArray} : ¬ (writeBytes (ofPlace []) data).Succeeds t x t' := by
  intro h
  obtain ⟨place, hplace, -, hlast, -⟩ := exists_place_of_writeBytes h
  obtain rfl : place = [] := eq_walk_of_placeOf hplace
  cases hlast

end FileAction

end GraphDecl
