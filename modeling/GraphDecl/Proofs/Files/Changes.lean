import GraphDecl.Files.Tree
import GraphDecl.Proofs.Outcome
import Mathlib.Data.List.Infix

/-!
What making directories and writing files does to a tree. A step that succeeds leaves all directories where
they are, and all files but the one that it writes.
-/

namespace GraphDecl

/-! ### Single nodes -/

namespace Node

theorem lookup_cons (name other : String) (n : Node) (entries : List (String × Node)) :
    ((name, n) :: entries).lookup other = if other = name then some n else entries.lookup other := by
  rw [List.lookup_cons]
  by_cases h : other = name
  · rw [if_pos h, beq_iff_eq.mpr h]
  · rw [if_neg h, beq_eq_false_iff_ne.mpr h]

/-- Setting an entry changes what is found under its name, and nothing else. -/
theorem lookup_setEntry (name other : String) (n : Node) (entries : List (String × Node)) :
    (setEntry name n entries).lookup other = if other = name then some n else entries.lookup other := by
  induction entries with
  | nil => rw [setEntry, lookup_cons]
  | cons entry entries ih =>
    obtain ⟨m, old⟩ := entry
    rw [setEntry]
    by_cases hm : m = name
    · subst hm
      rw [if_pos rfl, lookup_cons, lookup_cons]
      split
      · rfl
      · rfl
    · rw [if_neg hm, lookup_cons, lookup_cons, ih]
      by_cases h : other = m
      · rw [if_pos h, if_pos h, if_neg (h ▸ hm)]
      · rw [if_neg h, if_neg h]

theorem at?_cons (entries : List (String × Node)) (c : String) (cs : List String) :
    (directory entries).at? (c :: cs) = (entries.lookup c).bind (·.at? cs) := by
  rw [at?]
  cases entries.lookup c <;> rfl

/-- A way in two parts is gone one part after the other. -/
theorem at?_append (n : Node) (p q : List String) : n.at? (p ++ q) = (n.at? p).bind (·.at? q) := by
  induction p generalizing n with
  | nil => simp [at?]
  | cons c p ih =>
    cases n with
    | file data => rfl
    | directory entries =>
      rw [List.cons_append, at?_cons, at?_cons]
      cases entries.lookup c with
      | none => rfl
      | some m => exact ih m

/-- A directory below a node that names lead to: the node is a directory, and the first name leads on. -/
theorem exists_entry_of_at? {n m : Node} {c : String} {cs : List String} (h : n.at? (c :: cs) = some m) :
    ∃ entries child, n = directory entries ∧ entries.lookup c = some child ∧ child.at? cs = some m := by
  cases n with
  | file data => cases h
  | directory entries =>
    rw [at?_cons] at h
    obtain ⟨child, hchild, h⟩ := Option.bind_eq_some_iff.mp h
    exact ⟨entries, child, rfl, hchild, h⟩

variable {t n : Node} {here : List String} {entries : List (String × Node)} {c : String}

/-- What is put into a directory stands there. -/
theorem at?_put_self (h : t.at? here = some (directory entries)) (rest : List String) :
    (t.put (here ++ [c]) n).at? (here ++ c :: rest) = n.at? rest := by
  induction here generalizing t with
  | nil =>
    cases h
    rw [List.nil_append, List.nil_append, put, at?_cons, lookup_setEntry, if_pos rfl, put]
    rfl
  | cons d here ih =>
    obtain ⟨es, child, rfl, hchild, hbelow⟩ := exists_entry_of_at? h
    rw [List.cons_append, List.cons_append, put, at?_cons, lookup_setEntry, if_pos rfl, hchild]
    exact ih hbelow

/-- Elsewhere files stay as they are, and directories remain directories. -/
theorem at?_put_of_not_prefix (h : t.at? here = some (directory entries)) {p : List String}
    (hp : ¬ here ++ [c] <+: p) :
    (∀ data, (t.put (here ++ [c]) n).at? p = some (file data) ↔ t.at? p = some (file data)) ∧
      ∀ es, t.at? p = some (directory es) →
        ∃ es', (t.put (here ++ [c]) n).at? p = some (directory es') := by
  -- on the way down; at a name that leads elsewhere nothing has changed
  induction here generalizing t p with
  | nil =>
    cases h
    rw [List.nil_append, put]
    cases p with
    | nil => simp [at?]
    | cons d p =>
      have hd : d ≠ c := by
        rintro rfl
        exact hp ⟨p, rfl⟩
      rw [at?_cons, at?_cons, lookup_setEntry, if_neg hd]
      exact ⟨fun data => Iff.rfl, fun es hes => ⟨es, hes⟩⟩
  | cons e here ih =>
    obtain ⟨es, child, rfl, hchild, hbelow⟩ := exists_entry_of_at? h
    rw [List.cons_append, put]
    cases p with
    | nil => simp [at?]
    | cons d p =>
      rw [at?_cons, at?_cons, lookup_setEntry]
      by_cases hd : d = e
      · subst hd
        rw [if_pos rfl, hchild]
        refine ih hbelow fun hprefix => hp ?_
        rw [List.cons_append]
        exact List.prefix_cons_inj d |>.mpr hprefix
      · rw [if_neg hd]
        exact ⟨fun data => Iff.rfl, fun es hes => ⟨es, hes⟩⟩

end Node

/-! ### Trees that keep what they hold -/

namespace FileTree

/-- From `t` to `t'` all directories stay, and all files but those at the `changed` places, at which there are
files afterwards. -/
structure Keeps (changed : List (List String)) (t t' : FileTree) : Prop where
  files : ∀ place, place ∉ changed → ∀ data,
    t'.at? place = some (.file data) ↔ t.at? place = some (.file data)
  directories : ∀ place es, t.at? place = some (.directory es) → ∃ es', t'.at? place = some (.directory es')
  written : ∀ place ∈ changed, ∃ data, t'.at? place = some (.file data)

theorem Keeps.refl (t : FileTree) : Keeps [] t t :=
  ⟨fun _ _ _ => Iff.rfl, fun _ es h => ⟨es, h⟩, fun _ h => nomatch h⟩

/-- Changes one after the other touch what either of them touches. -/
theorem Keeps.trans {changed changed' : List (List String)} {t t' t'' : FileTree} (h : Keeps changed t t')
    (h' : Keeps changed' t' t'') : Keeps (changed ++ changed') t t'' := by
  constructor
  · intro place hplace data
    rw [List.mem_append, not_or] at hplace
    exact (h'.files place hplace.2 data).trans (h.files place hplace.1 data)
  · intro place es hes
    obtain ⟨es', hes'⟩ := h.directories place es hes
    exact h'.directories place es' hes'
  · intro place hplace
    by_cases hlater : place ∈ changed'
    · exact h'.written place hlater
    · obtain ⟨data, hdata⟩ := h.written place ((List.mem_append.mp hplace).resolve_right hlater)
      exact ⟨data, (h'.files place hlater data).mpr hdata⟩

/-- Nothing that was there is gone. -/
theorem Keeps.isSome {changed : List (List String)} {t t' : FileTree} (h : Keeps changed t t')
    {place : List String} (hplace : (t.at? place).isSome = true) : (t'.at? place).isSome = true := by
  obtain ⟨n, hn⟩ := Option.isSome_iff_exists.mp hplace
  cases n with
  | directory es =>
    obtain ⟨es', hes'⟩ := h.directories place es hn
    rw [hes']
    rfl
  | file data =>
    by_cases hchanged : place ∈ changed
    · obtain ⟨data', hdata'⟩ := h.written place hchanged
      rw [hdata']
      rfl
    · rw [(h.files place hchanged data).mpr hn]
      rfl

variable {t t' : FileTree} {here : List String} {entries : List (String × Node)} {c : String}

theorem at?_concat (h : t.at? here = some (.directory entries)) (rest : List String) :
    t.at? (here ++ c :: rest) = (entries.lookup c).bind (·.at? rest) := by
  rw [Node.at?_append, h, Option.bind_some, Node.at?_cons]

/-- A new directory touches nothing. -/
theorem keeps_put_directory (h : t.at? here = some (.directory entries)) (hc : entries.lookup c = none) :
    Keeps [] t (t.put (here ++ [c]) (.directory [])) := by
  have hbelow (rest : List String) : t.at? (here ++ c :: rest) = none := by
    rw [at?_concat h, hc]
    rfl
  constructor
  · intro place _ data
    by_cases hplace : here ++ [c] <+: place
    · obtain ⟨rest, rfl⟩ := hplace
      rw [List.append_assoc, List.singleton_append, Node.at?_put_self h, hbelow]
      cases rest <;> simp [Node.at?]
    · exact (Node.at?_put_of_not_prefix h hplace).1 data
  · intro place es hes
    by_cases hplace : here ++ [c] <+: place
    · obtain ⟨rest, rfl⟩ := hplace
      rw [List.append_assoc, List.singleton_append, hbelow] at hes
      cases hes
    · exact (Node.at?_put_of_not_prefix h hplace).2 es hes
  · exact fun place hplace => nomatch hplace

/-- A file that is written touches its own place. -/
theorem keeps_put_file (h : t.at? here = some (.directory entries))
    (hc : ∀ es, entries.lookup c ≠ some (.directory es)) (data : ByteArray) :
    Keeps [here ++ [c]] t (t.put (here ++ [c]) (.file data)) := by
  have hself : (t.put (here ++ [c]) (.file data)).at? (here ++ [c]) = some (.file data) :=
    Node.at?_put_self h []
  have hbelow (d : String) (rest : List String) : t.at? (here ++ c :: d :: rest) = none := by
    rw [at?_concat h]
    cases hentry : entries.lookup c with
    | none => rfl
    | some n =>
      cases n with
      | file data => rfl
      | directory es => exact absurd hentry (hc es)
  constructor
  · intro place hne data'
    by_cases hplace : here ++ [c] <+: place
    · obtain ⟨rest, rfl⟩ := hplace
      cases rest with
      | nil => exact absurd (by simp) hne
      | cons d rest =>
        rw [List.append_assoc, List.singleton_append, Node.at?_put_self h, hbelow]
        simp [Node.at?]
    · exact (Node.at?_put_of_not_prefix h hplace).1 data'
  · intro place es hes
    by_cases hplace : here ++ [c] <+: place
    · obtain ⟨rest, rfl⟩ := hplace
      rw [List.append_assoc, List.singleton_append] at hes
      cases rest with
      | nil =>
        rw [at?_concat h] at hes
        obtain ⟨n, hn, hes⟩ := Option.bind_eq_some_iff.mp hes
        cases hes
        exact absurd hn (hc es)
      | cons d rest =>
        rw [hbelow] at hes
        cases hes
    · exact (Node.at?_put_of_not_prefix h hplace).2 es hes
  · intro place hplace
    rw [List.mem_singleton.mp hplace]
    exact ⟨data, hself⟩

/-! ### Places of paths -/

def placeOf (t : FileTree) (path : String) : Except FileError (List String) := do
  t.follow [] (← componentsOf path)

/-- A way that can be gone stays the same while directories and entries are kept. -/
theorem Keeps.follow {changed : List (List String)} (h : Keeps changed t t') {cs place : List String}
    (hfollow : t.follow here cs = .ok place) : t'.follow here cs = .ok place := by
  induction cs generalizing here with
  | nil => exact hfollow
  | cons c cs ih =>
    rw [FileTree.follow] at hfollow
    split at hfollow
    · next es hes =>
      obtain ⟨es', hes'⟩ := h.directories here es hes
      rw [FileTree.follow, hes']
      dsimp only
      split at hfollow
      · next hidle => rw [if_pos hidle, ih hfollow]
      · next hidle =>
        rw [if_neg hidle]
        split at hfollow
        · next hback => rw [if_pos hback, ih hfollow]
        · next hback =>
          rw [if_neg hback]
          split at hfollow
          · cases hfollow
          · next hlong =>
            rw [if_neg hlong]
            split at hfollow
            · next hentry =>
              have hsome : (t.at? (here ++ [c])).isSome = true := by
                rw [at?_concat hes]
                simpa [Node.at?] using hentry
              have hentry' := h.isSome hsome
              rw [at?_concat hes'] at hentry'
              rw [if_pos (by simpa [Node.at?] using hentry'), ih hfollow]
            · cases hfollow
    · cases hfollow

/-- Paths lead where they led before. -/
theorem Keeps.placeOf {changed : List (List String)} (h : Keeps changed t t') {path : String}
    {place : List String} (hplace : t.placeOf path = .ok place) : t'.placeOf path = .ok place := by
  obtain ⟨cs, hcs, hfollow⟩ := bind_eq_ok_iff.mp hplace
  exact bind_eq_ok_iff.mpr ⟨cs, hcs, h.follow hfollow⟩

/-- Names are followed one after the other. -/
theorem follow_append (t : FileTree) (here cs ds : List String) :
    t.follow here (cs ++ ds) = t.follow here cs >>= fun place => t.follow place ds := by
  induction cs generalizing here with
  | nil => rfl
  | cons c cs ih =>
    rw [List.cons_append, FileTree.follow, FileTree.follow]
    split
    · simp only [ih]
      repeat' split
      all_goals rfl
    · rfl

/-- The step to a file that is there. -/
theorem follow_file {data : ByteArray} (h : t.at? (here ++ [c]) = some (.file data))
    (hidle : ¬ PathText.isIdle c = true) (hback : ¬ (c == "..") = true) (hlong : ¬ isTooLong c = true) :
    t.follow here [c] = .ok (here ++ [c]) := by
  have hentry := Node.at?_append t here [c]
  rw [h] at hentry
  obtain ⟨n, hn, hfile⟩ := Option.bind_eq_some_iff.mp hentry.symm
  obtain ⟨entries, child, rfl, hchild, -⟩ := Node.exists_entry_of_at? hfile
  rw [FileTree.follow, hn]
  simp only [if_neg hidle, if_neg hback, if_neg hlong, hchild]
  rfl

theorem read_eq_ok_iff {path : String} {data : ByteArray} :
    t.read path = .ok data ↔ t.node path = .ok (.file data) := by
  rw [read, bind_eq_ok_iff]
  constructor
  · rintro ⟨_ | entries, hnode, h⟩
    · cases h
      exact hnode
    · cases h
  · exact fun h => ⟨_, h, rfl⟩

theorem read_eq_ok {path : String} {place : List String} {data : ByteArray}
    (hplace : t.placeOf path = .ok place) (hdata : t.at? place = some (.file data)) :
    t.read path = .ok data := by
  obtain ⟨cs, hcs, hfollow⟩ := bind_eq_ok_iff.mp hplace
  refine read_eq_ok_iff.mpr ?_
  simp only [node, hcs, bind, Except.bind, hfollow, hdata]
  rfl

end FileTree

/-! ### Steps -/

namespace FileAction

/-- The step succeeds on the tree `t`, with the result `x` and the tree `t'`. -/
def Succeeds {α : Type} (a : FileAction α) (t : FileTree) (x : α) (t' : FileTree) : Prop :=
  a.run.run t = (.ok x, t')

section

variable {α β : Type} {t t' : FileTree}

/-- Steps succeed one after the other, the second on the tree that the first leaves. -/
theorem succeeds_bind {a : FileAction α} {f : α → FileAction β} {y : β} :
    (a >>= f).Succeeds t y t' ↔ ∃ x u, a.Succeeds t x u ∧ (f x).Succeeds u y t' := by
  rw [Succeeds, run_bind]
  constructor
  · intro h
    split at h
    · next x u ha => exact ⟨x, u, ha, h⟩
    · cases h
  · rintro ⟨x, u, ha, hf⟩
    rw [Succeeds] at ha
    rw [ha]
    exact hf

theorem succeeds_pure {x y : α} : (pure x : FileAction α).Succeeds t y t' ↔ y = x ∧ t' = t := by
  constructor
  · intro h
    cases h
    exact ⟨rfl, rfl⟩
  · rintro ⟨rfl, rfl⟩
    rfl

theorem succeeds_get {u : FileTree} : (get : FileAction FileTree).Succeeds t u t' ↔ u = t ∧ t' = t :=
  succeeds_pure

theorem succeeds_set {u : FileTree} {x : PUnit} : (set u : FileAction PUnit).Succeeds t x t' ↔ t' = u := by
  constructor
  · intro h
    cases h
    rfl
  · rintro rfl
    rfl

theorem not_succeeds_throw {e : FileError} {x : α} : ¬ (throw e : FileAction α).Succeeds t x t' :=
  nofun

theorem succeeds_of_toOption {a : FileAction α} {x : α} (h : (a.run.run t).1.toOption = some x) :
    a.Succeeds t x (a.run.run t).2 :=
  Prod.ext (toOption_eq_some_iff.mp h) rfl

theorem succeeds_lift {e : Except FileError α} {x : α} :
    (liftM e : FileAction α).Succeeds t x t' ↔ e = .ok x ∧ t' = t := by
  cases e with
  | error fault => exact ⟨nofun, nofun⟩
  | ok y =>
    constructor
    · intro h
      cases h
      exact ⟨rfl, rfl⟩
    · rintro ⟨⟨⟩, rfl⟩
      rfl

end

theorem run_get_bind {α : Type} {t : FileTree} (f : FileTree → FileAction α) :
    ((get : FileAction FileTree) >>= f).run.run t = (f t).run.run t := rfl

theorem run_set_bind {α : Type} {t u : FileTree} (a : FileAction α) :
    ((set u : FileAction PUnit) >>= fun _ => a).run.run t = a.run.run u := rfl

/-! ### Making directories -/

/-- One step on the way along which directories are made, from a tree and the directory at a place to the next ones. -/
inductive DirectoryStep (t : FileTree) (here : List String) (entries : List (String × Node)) (c : String) :
    FileTree → List String → Prop
  | idle (leads : PathText.isIdle c = true) : DirectoryStep t here entries c t here
  | back (leads : PathText.isIdle c = false) (up : c = "..") : DirectoryStep t here entries c t here.dropLast
  | there {inner : List (String × Node)} (leads : PathText.isIdle c = false) (down : c ≠ "..")
      (found : entries.lookup c = some (.directory inner)) : DirectoryStep t here entries c t (here ++ [c])
  | new (leads : PathText.isIdle c = false) (down : c ≠ "..") (missing : entries.lookup c = none)
      (short : FileTree.isTooLong c = false) :
      DirectoryStep t here entries c (t.put (here ++ [c]) (.directory [])) (here ++ [c])

section

variable {t t' u : FileTree} {here next cs : List String} {entries : List (String × Node)} {c : String} {x : Unit}

theorem DirectoryStep.run_eq (h : DirectoryStep t here entries c u next)
    (hhere : t.at? here = some (.directory entries)) :
    (makeDirectories here (c :: cs)).run.run t = (makeDirectories next cs).run.run u := by
  rw [makeDirectories, run_get_bind]
  cases h with
  | idle leads => simp only [hhere, leads, if_true]
  | back leads up => simp only [hhere, leads, beq_iff_eq.mpr up, Bool.false_eq_true, if_false, if_true]
  | there leads down found => simp [hhere, leads, down, found]
  | new leads down missing short =>
    simp only [hhere, leads, beq_eq_false_iff_ne.mpr down, missing, short, Bool.false_eq_true, if_false]
    exact run_set_bind _

/-- A step is made, or nothing is changed. -/
theorem exists_directoryStep (t : FileTree) (here : List String) (c : String) (cs : List String) :
    (∃ e, (makeDirectories here (c :: cs)).run.run t = (.error e, t)) ∨
      ∃ entries u next, t.at? here = some (.directory entries) ∧ DirectoryStep t here entries c u next := by
  rw [makeDirectories, run_get_bind]
  split
  · next entries hhere =>
    cases leads : PathText.isIdle c with
    | true => exact .inr ⟨entries, _, _, hhere, .idle leads⟩
    | false =>
      by_cases down : c = ".."
      · exact .inr ⟨entries, _, _, hhere, .back leads down⟩
      · rw [if_neg Bool.false_ne_true, if_neg (by simpa using down)]
        split
        · exact .inl ⟨_, rfl⟩
        · next inner found => exact .inr ⟨entries, _, _, hhere, .there leads down found⟩
        · next missing =>
          split
          · exact .inl ⟨_, rfl⟩
          · next short => exact .inr ⟨entries, _, _, hhere, .new leads down missing (by simpa using short)⟩
  · exact .inl ⟨_, rfl⟩

/-- Directories are made one component at a time. -/
theorem succeeds_makeDirectories_cons : (makeDirectories here (c :: cs)).Succeeds t x t' ↔
    ∃ entries u next, t.at? here = some (.directory entries) ∧ DirectoryStep t here entries c u next ∧
      (makeDirectories next cs).Succeeds u x t' := by
  constructor
  · intro h
    rcases exists_directoryStep t here c cs with ⟨e, hfail⟩ | ⟨entries, u, next, hhere, hstep⟩
    · cases hfail.symm.trans h
    · exact ⟨entries, u, next, hhere, hstep, (hstep.run_eq hhere).symm.trans h⟩
  · rintro ⟨entries, u, next, hhere, hstep, h⟩
    exact (hstep.run_eq hhere).trans h

/-- Making one directory touches nothing that was there. -/
theorem DirectoryStep.keeps (h : DirectoryStep t here entries c u next)
    (hhere : t.at? here = some (.directory entries)) :
    FileTree.Keeps [] t u := by
  cases h with
  | new leads down missing short => exact FileTree.keeps_put_directory hhere missing
  | _ => exact .refl t

/-- Making directories adds directories and changes nothing else. -/
theorem keeps_of_makeDirectories (h : (makeDirectories here cs).Succeeds t x t') : FileTree.Keeps [] t t' := by
  induction cs generalizing here t with
  | nil =>
    obtain ⟨-, rfl⟩ := succeeds_pure.mp h
    exact .refl _
  | cons c cs ih =>
    obtain ⟨entries, u, next, hhere, hstep, hrest⟩ := succeeds_makeDirectories_cons.mp h
    exact (hstep.keeps hhere).trans (ih hrest)

end

/-- Nor does making all directories of a path. -/
theorem keeps_of_makeDirectory {path : String} {t t' : FileTree} {x : Unit}
    (h : (makeDirectory path).Succeeds t x t') : FileTree.Keeps [] t t' := by
  obtain ⟨cs, u, hcs, hmake⟩ := succeeds_bind.mp h
  obtain ⟨-, rfl⟩ := succeeds_lift.mp hcs
  exact keeps_of_makeDirectories hmake

theorem componentsOf_eq_ok {path : String} {cs : List String} (h : FileTree.componentsOf path = .ok cs) :
    cs = PathText.components path := by
  unfold FileTree.componentsOf at h
  split at h
  · cases h
  · split at h
    · cases h
    · exact (Except.ok.inj h).symm

/-! ### Writing files -/

/-- What it takes to write a file: the way to its directory can be gone, and nothing but a file has its name there. -/
theorem succeeds_writeBytes {path : String} {data : ByteArray} {t t' : FileTree} {x : Unit} :
    (writeBytes path data).Succeeds t x t' ↔ ∃ cs here entries last, FileTree.componentsOf path = .ok cs ∧
      t.follow [] cs.dropLast = .ok here ∧ t.at? here = some (.directory entries) ∧ last = cs.getLast?.getD "" ∧
      PathText.isIdle last = false ∧ last ≠ ".." ∧ FileTree.isTooLong last = false ∧
      (∀ es, entries.lookup last ≠ some (.directory es)) ∧ t' = t.put (here ++ [last]) (.file data) := by
  rw [writeBytes, succeeds_bind]
  constructor
  · rintro ⟨u, v, hget, hwrite⟩
    obtain ⟨hu, hv⟩ := succeeds_get.mp hget
    rw [hu, hv, succeeds_bind] at hwrite
    obtain ⟨cs, w, hlift, hwrite⟩ := hwrite
    obtain ⟨hcs, rfl⟩ := succeeds_lift.mp hlift
    obtain ⟨here, w, hlift, hwrite⟩ := succeeds_bind.mp hwrite
    obtain ⟨hfollow, rfl⟩ := succeeds_lift.mp hlift
    split at hwrite
    · next entries hhere =>
      split at hwrite
      · exact absurd hwrite not_succeeds_throw
      · next hplain =>
        split at hwrite
        · exact absurd hwrite not_succeeds_throw
        · next hlong =>
          split at hwrite
          · exact absurd hwrite not_succeeds_throw
          · next hfree =>
            rw [Bool.or_eq_true, not_or, beq_iff_eq] at hplain
            exact ⟨cs, here, entries, _, hcs, hfollow, hhere, rfl, by simpa using hplain.1, hplain.2,
              by simpa using hlong, hfree, succeeds_set.mp hwrite⟩
    · exact absurd hwrite not_succeeds_throw
  · rintro ⟨cs, here, entries, last, hcs, hfollow, hhere, hlast, hidle, hdown, hlong, hfree, rfl⟩
    refine ⟨t, t, succeeds_get.mpr ⟨rfl, rfl⟩, succeeds_bind.mpr ⟨cs, t, succeeds_lift.mpr ⟨hcs, rfl⟩,
      succeeds_bind.mpr ⟨here, t, succeeds_lift.mpr ⟨hfollow, rfl⟩, ?_⟩⟩⟩
    have hdown : (last == "..") = false := by simpa using hdown
    simp only [hhere, ← hlast, hidle, hdown, hlong, Bool.or_self, Bool.false_eq_true, if_false]
    exact succeeds_set.mpr rfl

/-- A file that is written is found at the place of its path, which ends with the last component of the path.
Nothing else changes. -/
theorem exists_place_of_writeBytes {path : String} {data : ByteArray} {t t' : FileTree} {x : Unit}
    (h : (writeBytes path data).Succeeds t x t') :
    ∃ place, t'.placeOf path = .ok place ∧ t'.at? place = some (.file data) ∧
      place.getLast? = (PathText.components path).getLast? ∧ FileTree.Keeps [place] t t' := by
  obtain ⟨cs, here, entries, last, hcs, hfollow, hhere, hlast, hidle, hdown, hlong, hfree, rfl⟩ :=
    succeeds_writeBytes.mp h
  rcases List.eq_nil_or_concat' cs with rfl | ⟨init, c, rfl⟩
  · subst hlast
    cases hidle
  rw [List.getLast?_concat, Option.getD_some] at hlast
  rw [List.dropLast_concat] at hfollow
  subst hlast
  have hkeeps := FileTree.keeps_put_file hhere hfree data
  have hself : (t.put (here ++ [last]) (.file data)).at? (here ++ [last]) = some (.file data) :=
    Node.at?_put_self hhere []
  refine ⟨here ++ [last], bind_eq_ok_iff.mpr ⟨_, hcs, ?_⟩, hself, ?_, hkeeps⟩
  · rw [FileTree.follow_append, hkeeps.follow hfollow]
    exact FileTree.follow_file hself (by simp [hidle]) (by simpa using hdown) (by simp [hlong])
  · rw [← componentsOf_eq_ok hcs, List.getLast?_concat, List.getLast?_concat]

end FileAction

end GraphDecl
