import GraphDecl.Proofs.Files.Changes
import GraphDecl.Proofs.Files.PathTexts

/-!
Where paths lead. A tree holds no links, so that the place of a path follows from its text alone, and a path
that is put together leads where its second part leads from the place of the first one.
-/

namespace GraphDecl

/-! ### Trees as file systems hold them -/

/-- A property of files that directories take over from what they hold. -/
theorem Node.induction {P : Node → Prop} (file : ∀ data, P (.file data))
    (directory : ∀ entries, (∀ entry ∈ entries, P entry.2) → P (.directory entries)) (n : Node) : P n := by
  match n with
  | .file data => exact file data
  | .directory entries => exact directory entries fun entry _ => Node.induction file directory entry.2
termination_by sizeOf n
decreasing_by
  have hentry : sizeOf entry.2 < sizeOf entry := by
    obtain ⟨name, m⟩ := entry
    simp only [Prod.mk.sizeOf_spec]
    omega
  have hentries := List.sizeOf_lt_of_mem ‹entry ∈ entries›
  simp only [Node.directory.sizeOf_spec]
  omega

structure IsEntryName (name : String) : Prop extends PathText.IsStep name where
  short : FileTree.isTooLong name = false
  null : '\x00' ∉ name.toList

instance (name : String) : Decidable (IsEntryName name) :=
  decidable_of_iff ((PathText.isIdle name = false ∧ name ≠ ".." ∧ '/' ∉ name.toList) ∧
      FileTree.isTooLong name = false ∧ '\x00' ∉ name.toList)
    ⟨fun ⟨⟨leads, down, slash⟩, short, null⟩ => ⟨⟨leads, down, slash⟩, short, null⟩,
      fun h => ⟨⟨h.leads, h.down, h.slash⟩, h.short, h.null⟩⟩

namespace FileTree

variable {t : FileTree} {here place : List String} {cs : List String} {c : String}

/-- The root is a directory, and the entries of every directory have names of their own that entries may have. -/
structure Proper (t : FileTree) : Prop where
  root : ∃ entries, t = .directory entries
  names : ∀ {here entries}, t.at? here = some (.directory entries) → ∀ entry ∈ entries, IsEntryName entry.1
  nodup : ∀ {here entries}, t.at? here = some (.directory entries) → (entries.map (·.1)).Nodup

theorem Proper.below {entries : List (String × Node)} (h : t.Proper) (hn : t.at? here = some (.directory entries)) :
    FileTree.Proper (.directory entries) := by
  have hat (p : List String) : t.at? (here ++ p) = (Node.directory entries).at? p := by
    rw [Node.at?_append, hn, Option.bind_some]
  exact ⟨⟨entries, rfl⟩, fun hes => h.names ((hat _).trans hes), fun hes => h.nodup ((hat _).trans hes)⟩

/-- The name of an entry leads to it. -/
theorem Proper.lookup {entries : List (String × Node)} (h : t.Proper) (hes : t.at? here = some (.directory entries))
    {name : String} {n : Node} : entries.lookup name = some n ↔ (name, n) ∈ entries := by
  have hnodup := h.nodup hes
  clear h hes
  induction entries with
  | nil => simp
  | cons entry entries ih =>
    obtain ⟨m, old⟩ := entry
    rw [List.map_cons, List.nodup_cons] at hnodup
    rw [Node.lookup_cons, List.mem_cons, Prod.mk.injEq]
    split
    · next hname =>
      subst hname
      constructor
      · intro heq
        exact .inl ⟨rfl, (Option.some.inj heq).symm⟩
      · rintro (⟨-, rfl⟩ | hmem)
        · rfl
        · exact absurd (List.mem_map_of_mem hmem) hnodup.1
    · next hname =>
      refine (ih hnodup.2).trans ⟨.inr, ?_⟩
      rintro (⟨rfl, -⟩ | hmem)
      · exact absurd rfl hname
      · exact hmem

/-- In a proper directory, what is found under a name is the one entry of that name. -/
theorem Proper.lookup_root {entries : List (String × Node)} (h : FileTree.Proper (.directory entries)) {name : String}
    {n : Node} : entries.lookup name = some n ↔ (name, n) ∈ entries :=
  h.lookup (show (Node.directory entries).at? [] = some (.directory entries) from rfl)

/-- A tree is put together from the nodes that its root holds. -/
theorem proper_directory {entries : List (String × Node)} (names : ∀ entry ∈ entries, IsEntryName entry.1)
    (nodup : (entries.map (·.1)).Nodup)
    (below : ∀ entry ∈ entries, ∀ es, entry.2 = .directory es → FileTree.Proper (.directory es)) :
    FileTree.Proper (.directory entries) := by
  -- what a name leads to is found below an entry, unless it is the root
  have hinside {here : List String} {es : List (String × Node)}
      (hes : (Node.directory entries).at? here = some (.directory es)) :
      es = entries ∨ ∃ es' below, FileTree.Proper (.directory es') ∧
        (Node.directory es').at? below = some (.directory es) := by
    cases here with
    | nil =>
      cases hes
      exact .inl rfl
    | cons c cs =>
      obtain ⟨_, n, heq, hlookup, hn⟩ := Node.exists_entry_of_at? hes
      cases heq
      have hmem : (c, n) ∈ entries := by
        obtain ⟨front, back, rfl, -⟩ := List.lookup_eq_some_iff.mp hlookup
        simp
      cases n with
      | file data => cases cs <;> cases hn
      | directory es' => exact .inr ⟨es', cs, below _ hmem _ rfl, hn⟩
  refine ⟨⟨entries, rfl⟩, fun hes => ?_, fun hes => ?_⟩
  · rcases hinside hes with rfl | ⟨es', below, hproper, hes⟩
    · exact names
    · exact hproper.names hes
  · rcases hinside hes with rfl | ⟨es', below, hproper, hes⟩
    · exact nodup
    · exact hproper.nodup hes

/-- All names that lead to something are names of entries. -/
theorem Proper.entryNames {n : Node} {names : List String} (h : t.Proper) (hn : t.at? names = some n) :
    ∀ name ∈ names, IsEntryName name := by
  induction names generalizing t with
  | nil => exact fun _ hname => nomatch hname
  | cons name names ih =>
    obtain ⟨entries, child, rfl, hchild, hbelow⟩ := Node.exists_entry_of_at? hn
    have hmem := h.lookup_root.mp hchild
    have hroot : (Node.directory entries).at? [] = some (.directory entries) := rfl
    refine List.forall_mem_cons.mpr ⟨h.names hroot _ hmem, ?_⟩
    cases names with
    | nil => exact fun _ hname => nomatch hname
    | cons next names =>
      obtain ⟨es, -, rfl, -, -⟩ := Node.exists_entry_of_at? hbelow
      have hat : (Node.directory entries).at? [name] = some (.directory es) := by
        rw [Node.at?_cons, hchild]
        rfl
      exact ih (h.below hat) hbelow

/-! ### Places -/

/-- A component that leads nowhere asks for a directory, as any component behind it does. -/
theorem follow_idle (h : PathText.isIdle c = true) (d : String) :
    t.follow here (c :: d :: cs) = t.follow here (d :: cs) := by
  rw [follow]
  cases hn : t.at? here with
  | none =>
    rw [follow, hn]
  | some n =>
    cases n with
    | file data => rw [follow, hn]
    | directory entries => exact if_pos h

/-- Slashes in front of a way change nothing. -/
theorem follow_append_idle (hne : cs ≠ []) (k : Nat) :
    t.follow here (List.replicate k "" ++ cs) = t.follow here cs := by
  induction k with
  | zero => rfl
  | succ k ih =>
    obtain ⟨d, ds, hd⟩ : ∃ d ds, List.replicate k "" ++ cs = d :: ds :=
      List.exists_cons_of_ne_nil (by simp [hne])
    rw [List.replicate_succ, List.cons_append, hd, follow_idle (by decide), ← hd, ih]

theorem follow_slash (entries : List (String × Node)) (h : t.at? here = some (.directory entries)) :
    t.follow here [""] = .ok here := by
  rw [follow, h]
  rfl

/-- A step that can be taken starts in a directory. -/
theorem exists_entries_of_follow (h : t.follow here (c :: cs) = .ok place) :
    ∃ entries, t.at? here = some (.directory entries) := by
  rw [follow] at h
  split at h
  · next entries hentries => exact ⟨entries, hentries⟩
  · cases h

/-- The second part of a path is gone from where the first one leads. -/
theorem follow_join (hroot : ∃ entries, t = .directory entries) (base : String) {p : String}
    (hp : PathText.isAbsolute p = false) :
    t.follow [] (PathText.components (PathText.join base p)) =
      t.follow [] (PathText.components base) >>= fun here => t.follow here (PathText.components p) := by
  obtain ⟨d, ds, hd⟩ := List.exists_cons_of_ne_nil (PathText.components_ne_nil p)
  rcases PathText.join_cases base hp with ⟨rfl, hjoin⟩ | ⟨front, rfl, hjoin⟩ | ⟨-, -, hjoin⟩
  · obtain ⟨entries, rfl⟩ := hroot
    rw [hjoin, show PathText.components "" = [""] from rfl, follow_slash entries rfl]
    rfl
  · have hfront : PathText.components (front ++ "/") = PathText.components front ++ [""] := by
      rw [← String.append_empty (s := front ++ "/"), PathText.components_append_slash]
      rfl
    rw [hjoin, PathText.components_append_slash, hfront, follow_append, follow_append, bind_assoc]
    congr 1
    funext here
    cases hn : t.at? here with
    | none =>
      rw [hd, follow, follow, hn]
      rfl
    | some n =>
      cases n with
      | file data =>
        rw [hd, follow, follow, hn]
        rfl
      | directory entries =>
        rw [follow_slash entries hn]
        rfl
  · rw [hjoin, PathText.components_append_slash, follow_append]

/-- Without links, a path leads where its components say. -/
theorem eq_walk_of_follow (h : t.follow here cs = .ok place) :
    place = PathText.walk here (cs.filter (!PathText.isIdle ·)) := by
  induction cs generalizing here with
  | nil =>
    cases h
    rfl
  | cons c cs ih =>
    obtain ⟨entries, hentries⟩ := exists_entries_of_follow h
    simp only [follow, hentries] at h
    split at h
    · next hidle => rw [List.filter_cons_of_neg (by simp [hidle]), ih h]
    · next hidle =>
      rw [List.filter_cons_of_pos (by simpa using hidle), PathText.walk]
      split at h
      · next hback => rw [if_pos hback, ih h]
      · next hback =>
        rw [if_neg hback]
        split at h
        · cases h
        · split at h
          · exact ih h
          · cases h

/-- Where a path leads can be read off its components. -/
theorem eq_walk_of_placeOf {path : String} (h : t.placeOf path = .ok place) :
    place = PathText.walk [] (PathText.parts path) := by
  obtain ⟨cs, hcs, hfollow⟩ := bind_eq_ok_iff.mp h
  rw [eq_walk_of_follow hfollow, FileAction.componentsOf_eq_ok hcs]
  rfl

def denoted? (t : FileTree) (path : String) : Option (List String) := (t.follow [] (PathText.components path)).toOption

theorem denoted?_eq_some_iff {path : String} :
    t.denoted? path = some place ↔ t.follow [] (PathText.components path) = .ok place :=
  toOption_eq_some_iff

theorem isStep_of_denoted? {path : String} (h : t.denoted? path = some place) :
    ∀ name ∈ place, PathText.IsStep name := by
  rw [eq_walk_of_follow (denoted?_eq_some_iff.mp h)]
  exact fun _ => PathText.isStep_of_mem_walk

/-- A path that leads somewhere resolves to the path of the place that it denotes. -/
theorem resolve_of_denoted? {path : String} (h : t.denoted? path = some place) :
    PathText.resolve "/" path = PathText.ofPlace place := by
  rw [PathText.resolve_root, eq_walk_of_follow (denoted?_eq_some_iff.mp h)]
  rfl

theorem isSome_of_append {p q : List String} (h : (t.at? (p ++ q)).isSome = true) : (t.at? p).isSome = true := by
  rw [Node.at?_append] at h
  cases hp : t.at? p with
  | none => simp [hp] at h
  | some n => rfl

/-- A path that can be gone leads to something. -/
theorem isSome_of_follow (hhere : (t.at? here).isSome = true) (h : t.follow here cs = .ok place) :
    (t.at? place).isSome = true := by
  induction cs generalizing here with
  | nil =>
    cases h
    exact hhere
  | cons c cs ih =>
    obtain ⟨entries, hentries⟩ := exists_entries_of_follow h
    simp only [follow, hentries] at h
    split at h
    · exact ih hhere h
    · split at h
      · refine ih ?_ h
        rcases List.eq_nil_or_concat here with rfl | ⟨init, last, rfl⟩
        · exact hhere
        · rw [List.concat_eq_append] at hhere ⊢
          rw [List.dropLast_concat]
          exact isSome_of_append hhere
      · split at h
        · cases h
        · split at h
          · next hsome =>
            refine ih ?_ h
            rw [at?_concat hentries]
            simpa [Node.at?] using hsome
          · cases h

/-- Names of entries lead to what they name. -/
theorem follow_of_isSome {names : List String} (hnames : ∀ name ∈ names, IsEntryName name)
    (h : (t.at? (here ++ names)).isSome = true) : t.follow here names = .ok (here ++ names) := by
  induction names generalizing here with
  | nil => rw [follow, List.append_nil]
  | cons name names ih =>
    rw [List.forall_mem_cons] at hnames
    rw [List.append_cons] at h ⊢
    obtain ⟨n, hn⟩ := Option.isSome_iff_exists.mp (isSome_of_append h)
    rw [Node.at?_append] at hn
    obtain ⟨m, hm, hn⟩ := Option.bind_eq_some_iff.mp hn
    obtain ⟨entries, child, rfl, hchild, -⟩ := Node.exists_entry_of_at? hn
    rw [follow, hm, ← ih hnames.2 h]
    simp [hnames.1.leads, hnames.1.down, hnames.1.short, hchild]

/-! ### Looking something up -/

theorem componentsOf_eq_ok_iff {path : String} :
    componentsOf path = .ok cs ↔
      '\x00' ∉ path.toList ∧ path.utf8ByteSize ≤ longestPath ∧ cs = PathText.components path := by
  unfold componentsOf
  split
  · next hnull => simp_all
  · next hnull =>
    split
    · next hlong =>
      simp only [reduceCtorEq, false_iff, not_and]
      intro _ hshort
      omega
    · next hshort =>
      simp only [List.contains_eq_mem, decide_eq_true_eq] at hnull
      rw [Except.ok.injEq]
      constructor
      · rintro rfl
        exact ⟨hnull, by omega, rfl⟩
      · rintro ⟨-, -, rfl⟩
        rfl

/-- A path leads somewhere if it can be a path and its components can be followed. -/
theorem placeOf_eq_ok_iff {path : String} :
    t.placeOf path = .ok place ↔ '\x00' ∉ path.toList ∧ path.utf8ByteSize ≤ longestPath ∧
      t.follow [] (PathText.components path) = .ok place := by
  rw [placeOf, bind_eq_ok_iff]
  constructor
  · rintro ⟨cs, hcs, hfollow⟩
    obtain ⟨hnull, hshort, rfl⟩ := componentsOf_eq_ok_iff.mp hcs
    exact ⟨hnull, hshort, hfollow⟩
  · rintro ⟨hnull, hshort, hfollow⟩
    exact ⟨_, componentsOf_eq_ok_iff.mpr ⟨hnull, hshort, rfl⟩, hfollow⟩

theorem node_eq_bind (t : FileTree) (path : String) :
    t.node path = t.placeOf path >>= fun place =>
      match t.at? place with
      | some n => .ok n
      | none => .error .notFound := by
  rw [node, placeOf, bind_assoc]
  rfl

/-- What is found at a path is what is at its place. -/
theorem node_eq_ok_iff {path : String} {n : Node} :
    t.node path = .ok n ↔ ∃ place, t.placeOf path = .ok place ∧ t.at? place = some n := by
  rw [node_eq_bind, bind_eq_ok_iff]
  constructor
  · rintro ⟨place, hplace, h⟩
    refine ⟨place, hplace, ?_⟩
    split at h
    · next m hm =>
      cases h
      exact hm
    · cases h
  · rintro ⟨place, hplace, hn⟩
    exact ⟨place, hplace, by rw [hn]⟩

theorem exists?_iff {path : String} : t.exists? path = true ↔ ∃ place, t.placeOf path = .ok place := by
  have hok : t.exists? path = true ↔ ∃ n, t.node path = .ok n := by
    rw [exists?]
    cases t.node path <;> simp [Except.isOk, Except.toBool]
  simp only [hok, node_eq_ok_iff]
  constructor
  · rintro ⟨n, place, hplace, -⟩
    exact ⟨place, hplace⟩
  · rintro ⟨place, hplace⟩
    obtain ⟨-, -, hfollow⟩ := placeOf_eq_ok_iff.mp hplace
    obtain ⟨n, hn⟩ := Option.isSome_iff_exists.mp (isSome_of_follow (t := t) rfl hfollow)
    exact ⟨n, place, hplace, hn⟩

theorem isDirectory_iff {path : String} :
    FileTree.isDirectory t path = true ↔
      ∃ place entries, t.placeOf path = .ok place ∧ t.at? place = some (.directory entries) := by
  have hok : FileTree.isDirectory t path = true ↔ ∃ entries, t.node path = .ok (.directory entries) := by
    rw [FileTree.isDirectory]
    cases t.node path with
    | error e => simp
    | ok n => cases n <;> simp [Node.isDirectory]
  simp only [hok, node_eq_ok_iff]
  exact ⟨fun ⟨entries, place, h⟩ => ⟨place, entries, h⟩, fun ⟨place, entries, h⟩ => ⟨entries, place, h⟩⟩

/-- What is listed are the entries of the directory that the path leads to, or nothing if it leads to none. -/
theorem entries_eq_ok {path : String} {entries : List (String × Node)} (h : t.entries path = .ok entries) :
    (∃ place, t.placeOf path = .ok place ∧ t.at? place = some (.directory entries)) ∨
      entries = [] ∧ ∀ place es, t.placeOf path = .ok place → t.at? place ≠ some (.directory es) := by
  unfold FileTree.entries at h
  split at h
  · next es hnode =>
    cases h
    exact .inl (node_eq_ok_iff.mp hnode)
  · cases h
  · next hdirectory _ =>
    cases h
    refine .inr ⟨rfl, fun place es hplace hes => ?_⟩
    exact hdirectory es (node_eq_ok_iff.mpr ⟨place, hplace, hes⟩)

/-- All that can be wrong with following names. -/
theorem error_of_follow {e : FileError} (h : t.follow here cs = .error e) :
    e = .notFound ∨ e = .notDirectory ∨ e = .nameTooLong := by
  induction cs generalizing here with
  | nil => cases h
  | cons c cs ih =>
    rw [follow] at h
    split at h
    · split at h
      · exact ih h
      · split at h
        · exact ih h
        · split at h
          · cases h
            exact .inr (.inr rfl)
          · split at h
            · exact ih h
            · cases h
              exact .inl rfl
    · cases h
      exact .inr (.inl rfl)

/-- All that can be wrong with the text of a path. -/
theorem error_of_componentsOf {path : String} {e : FileError} (h : componentsOf path = .error e) :
    e = .nameTooLong ∨ e = .nullInPath ∧ '\x00' ∈ path.toList := by
  unfold componentsOf at h
  split at h
  · next hnull =>
    cases h
    exact .inr ⟨rfl, by simpa using hnull⟩
  · split at h
    · cases h
      exact .inl rfl
    · cases h

/-- A node is not found, or its path is no path. -/
theorem error_of_node {path : String} {e : FileError} (h : t.node path = .error e) :
    e = .notFound ∨ e = .notDirectory ∨ e = .nameTooLong ∨ e = .nullInPath ∧ '\x00' ∈ path.toList := by
  rw [node_eq_bind, placeOf, bind_eq_error_iff, bind_eq_error_iff] at h
  rcases h with (hnames | ⟨cs, -, hfollow⟩) | ⟨place, -, hnone⟩
  · exact .inr (.inr (error_of_componentsOf hnames))
  · rcases error_of_follow hfollow with he | he | he
    · exact .inl he
    · exact .inr (.inl he)
    · exact .inr (.inr (.inl he))
  · cases hn : t.at? place with
    | some n => simp [hn] at hnone
    | none =>
      rw [hn] at hnone
      cases hnone
      exact .inl rfl

/-- Every directory can be listed whose path has no character of code 0. -/
theorem exists_entries {path : String} (h : '\x00' ∉ path.toList) : ∃ entries, t.entries path = .ok entries := by
  unfold FileTree.entries
  split
  · next es _ => exact ⟨es, rfl⟩
  · next hnode =>
    rcases error_of_node hnode with he | he | he | ⟨-, hnull⟩
    · cases he
    · cases he
    · cases he
    · exact absurd hnull h
  · exact ⟨[], rfl⟩

end FileTree

end GraphDecl
