import GraphDecl.Proofs.Files.Contents
import GraphDecl.Proofs.Files.WrittenFiles

/-!
What is left behind when a compilation cannot be written. Its files are written one after the other, and what has been
done by then stays done: the file for the schema is there in full if only the one for the operations cannot be written.
-/

namespace GraphDecl

open PathText

/-! ### Directories that have been made -/

namespace Node

variable {t n : Node} {here : List String} {entries : List (String × Node)} {c : String}

/-- What is put somewhere does not show at places that lie neither above nor below. -/
theorem at?_put_of_apart (h : t.at? here = some (directory entries)) {p : List String} (hbelow : ¬ here ++ [c] <+: p)
    (habove : ¬ p <+: here ++ [c]) : (t.put (here ++ [c]) n).at? p = t.at? p := by
  induction here generalizing t p with
  | nil =>
    cases h
    cases p with
    | nil => exact absurd (List.nil_prefix) habove
    | cons d p =>
      have hd : d ≠ c := by
        rintro rfl
        exact hbelow ⟨p, rfl⟩
      rw [List.nil_append, put, at?_cons, at?_cons, lookup_setEntry, if_neg hd]
  | cons e here ih =>
    obtain ⟨es, child, rfl, hchild, hinner⟩ := exists_entry_of_at? h
    cases p with
    | nil => exact absurd (List.nil_prefix) habove
    | cons d p =>
      rw [List.cons_append, put, at?_cons, at?_cons, lookup_setEntry]
      by_cases hd : d = e
      · subst hd
        rw [List.cons_append, List.prefix_cons_inj] at hbelow habove
        rw [if_pos rfl, hchild]
        exact ih hinner hbelow habove
      · rw [if_neg hd]

end Node

namespace FileTree

variable {t t' t'' : FileTree} {P Q : List String → Prop} {place p : List String}

/-- Directories have been made, one after the other, and all of them at such places. -/
inductive Made (Q : List String → Prop) : FileTree → FileTree → Prop
  | refl (t : FileTree) : Made Q t t
  | step {t t' : FileTree} {here : List String} {entries : List (String × Node)} {c : String}
      (there : t.at? here = some (.directory entries)) (new : entries.lookup c = none) (place : Q (here ++ [c]))
      (rest : Made Q (t.put (here ++ [c]) (.directory [])) t') : Made Q t t'

theorem Made.keeps (h : Made Q t t') : Keeps [] t t' := by
  induction h with
  | refl t => exact .refl t
  | step there new place rest ih => exact (keeps_put_directory there new).trans ih

/-- Directories that are made on the way to a place show nowhere else. -/
theorem Made.at?_eq (h : Made (· <+: place) t t') (hp : ¬ p <+: place) : t'.at? p = t.at? p := by
  induction h with
  | refl t => rfl
  | @step t t' here entries c there new hplace rest ih =>
    rw [ih]
    by_cases hbelow : here ++ [c] <+: p
    · obtain ⟨rest, rfl⟩ := hbelow
      rw [List.append_assoc, List.singleton_append, Node.at?_put_self there, at?_concat there, new]
      cases rest with
      | nil => exact absurd (by rwa [List.append_nil]) hp
      | cons d rest => rfl
    · exact Node.at?_put_of_apart there hbelow fun habove => hp (habove.trans hplace)

end FileTree

namespace FileAction

open FileTree

variable {α : Type} {t t' u : FileTree} {here cs : List String} {path : String}

/-- Whether or not it succeeds, making directories makes nothing but directories, at places on the way. -/
theorem made_makeDirectories {Q : List String → Prop}
    (hQ : ∀ front, front <+: cs → Q (walk here (front.filter (!isIdle ·)))) :
    Made Q t ((makeDirectories here cs).run.run t).2 := by
  induction cs generalizing here t with
  | nil => exact .refl t
  | cons c cs ih =>
    rcases exists_directoryStep t here c cs with ⟨e, hfail⟩ | ⟨entries, u, next, hhere, hstep⟩
    · rw [hfail]
      exact .refl t
    rw [hstep.run_eq hhere]
    have hnext (front : List String) (hfront : front <+: cs) := hQ (c :: front) ((List.prefix_cons_inj c).mpr hfront)
    cases hstep with
    | idle leads =>
      refine ih fun front hfront => ?_
      have hplace := hnext front hfront
      rwa [List.filter_cons_of_neg (by simpa using leads)] at hplace
    | back leads up =>
      refine ih fun front hfront => ?_
      have hplace := hnext front hfront
      rwa [List.filter_cons_of_pos (by simpa using leads), walk, if_pos (by simpa using up)] at hplace
    | there leads down found =>
      refine ih fun front hfront => ?_
      have hplace := hnext front hfront
      rwa [List.filter_cons_of_pos (by simpa using leads), walk, if_neg (by simpa using down)] at hplace
    | new leads down missing short =>
      have hplaces (front : List String) (hfront : front <+: cs) :
          Q (walk (here ++ [c]) (front.filter (!isIdle ·))) := by
        have hplace := hnext front hfront
        rwa [List.filter_cons_of_pos (by simpa using leads), walk, if_neg (by simpa using down)] at hplace
      exact .step hhere missing (hplaces [] List.nil_prefix) (ih hplaces)

/-- A run of making directories that is broken off leaves directories on the way and nothing else.
-/
theorem made_makeDirectory {Q : List String → Prop}
    (hQ : ∀ front, front <+: components path → Q (walk [] (front.filter (!isIdle ·)))) :
    Made Q t ((makeDirectory path).run.run t).2 := by
  rw [makeDirectory]
  cases hcs : componentsOf path with
  | error e => exact .refl t
  | ok cs =>
    obtain ⟨-, -, rfl⟩ := componentsOf_eq_ok_iff.mp hcs
    exact made_makeDirectories hQ

/-- A directory that is there need not be made. -/
theorem succeeds_makeDirectories_of_follow {place : List String} (h : t.follow here cs = .ok place)
    (hplace : ∃ es, t.at? place = some (.directory es)) : (makeDirectories here cs).Succeeds t () t := by
  induction cs generalizing here with
  | nil => exact succeeds_pure.mpr ⟨rfl, rfl⟩
  | cons c cs ih =>
    rw [succeeds_makeDirectories_cons]
    rw [follow] at h
    split at h
    · next entries hhere =>
      split at h
      · next hidle => exact ⟨entries, _, _, hhere, .idle hidle, ih h⟩
      · next hidle =>
        have leads : isIdle c = false := by simpa using hidle
        split at h
        · next hdown => exact ⟨entries, _, _, hhere, .back leads (by simpa using hdown), ih h⟩
        · next hdown =>
          have down : c ≠ ".." := by simpa using hdown
          split at h
          · cases h
          · split at h
            · next hentry =>
              obtain ⟨n, hn⟩ := Option.isSome_iff_exists.mp hentry
              have hnext : t.at? (here ++ [c]) = some n := by
                rw [at?_concat hhere, hn]
                rfl
              cases n with
              | directory es => exact ⟨entries, _, _, hhere, .there leads down hn, ih h⟩
              | file data =>
                -- a file leads nowhere, and is no directory itself
                obtain ⟨es, hes⟩ := hplace
                cases cs with
                | nil =>
                  cases h
                  rw [hnext] at hes
                  cases hes
                | cons d cs =>
                  rw [follow, hnext] at h
                  cases h
            · cases h
    · cases h

theorem exists_directory_dropLast (h : ∃ es, t.at? here = some (.directory es)) :
    ∃ es, t.at? here.dropLast = some (.directory es) := by
  rcases List.eq_nil_or_concat' here with rfl | ⟨front, c, rfl⟩
  · exact h
  · obtain ⟨es, hes⟩ := h
    rw [Node.at?_append] at hes
    obtain ⟨n, hn, hbelow⟩ := Option.bind_eq_some_iff.mp hes
    obtain ⟨entries, child, rfl, -, -⟩ := Node.exists_entry_of_at? hbelow
    rw [List.dropLast_concat]
    exact ⟨entries, hn⟩

/-- The way to directories that have been made can be gone. -/
theorem exists_follow_of_makeDirectories {x : Unit} (hnamed : t.Named) (hhere : ∃ es, t.at? here = some (.directory es))
    (hcs : ∀ c ∈ cs, '/' ∉ c.toList ∧ '\x00' ∉ c.toList) (h : (makeDirectories here cs).Succeeds t x t') :
    ∃ place, t'.follow here cs = .ok place ∧ ∃ es, t'.at? place = some (.directory es) := by
  induction cs generalizing here t with
  | nil =>
    obtain ⟨-, rfl⟩ := succeeds_pure.mp h
    exact ⟨here, rfl, hhere⟩
  | cons c cs ih =>
    rw [List.forall_mem_cons] at hcs
    obtain ⟨entries, u, next, hentries, hstep, hrest⟩ := succeeds_makeDirectories_cons.mp h
    obtain ⟨es, hes⟩ := (keeps_of_makeDirectories h).directories here entries hentries
    -- what the next component names is still there at the end
    have hentry {inner : List (String × Node)} (hinner : u.at? (here ++ [c]) = some (.directory inner))
        (hnext : (makeDirectories (here ++ [c]) cs).Succeeds u x t') : (es.lookup c).isSome = true := by
      obtain ⟨inner', hthere⟩ := (keeps_of_makeDirectories hnext).directories _ inner hinner
      rw [at?_concat hes] at hthere
      obtain ⟨n, hn, -⟩ := Option.bind_eq_some_iff.mp hthere
      rw [hn]
      rfl
    rw [follow, hes]
    dsimp only
    cases hstep with
    | idle leads =>
      rw [if_pos leads]
      exact ih hnamed ⟨entries, hentries⟩ hcs.2 hrest
    | back leads up =>
      rw [if_neg (by simp [leads]), if_pos (by simpa using up)]
      exact ih hnamed (exists_directory_dropLast ⟨entries, hentries⟩) hcs.2 hrest
    | @there inner leads down found =>
      have hinner : t.at? (here ++ [c]) = some (.directory inner) := by
        rw [at?_concat hentries, found]
        rfl
      have hshort : isTooLong c = false := (hnamed _ (by rw [hinner]; rfl) c (by simp)).short
      rw [if_neg (by simp [leads]), if_neg (by simpa using down), if_neg (by simp [hshort]),
        if_pos (hentry hinner hrest)]
      exact ih hnamed ⟨inner, hinner⟩ hcs.2 hrest
    | new leads down missing short =>
      have hname : IsEntryName c := ⟨⟨leads, down, hcs.1.1⟩, short, hcs.1.2⟩
      have hinner : Node.at? (Node.put t (here ++ [c]) (.directory [])) (here ++ [c]) = some (.directory []) :=
        Node.at?_put_self hentries []
      have hnamed' := (grows_put_directory hentries missing).named hnamed <| List.forall_mem_append.mpr
        ⟨hnamed here (by rw [hentries]; rfl), List.forall_mem_singleton.mpr hname⟩
      rw [if_neg (by simp [leads]), if_neg (by simpa using down), if_neg (by simp [short]),
        if_pos (hentry hinner hrest)]
      exact ih hnamed' ⟨[], hinner⟩ hcs.2 hrest

end FileAction

/-! ### The directory of a file -/

namespace FileTree

variable {t : FileTree} {here there : List String} {base n : String}

theorem eq_of_follow_slashes {k : Nat} (h : t.follow here (List.replicate k "") = .ok there) : there = here := by
  rw [eq_walk_of_follow h, List.filter_eq_nil_iff.mpr]
  · rfl
  · intro c hc
    rw [List.eq_of_mem_replicate hc]
    decide

/-- The way to a directory is gone as far as to the file in it. -/
theorem follow_dropLast_join (hn : '/' ∉ n.toList) (h : t.follow [] (components base) = .ok here) :
    t.follow [] (components (join base n)).dropLast = .ok here := by
  rcases join_cases base (isAbsolute_eq_false hn) with ⟨rfl, hjoin⟩ | ⟨front, rfl, hjoin⟩ | ⟨-, -, hjoin⟩
  · rw [hjoin, components_eq_singleton hn]
    obtain rfl : here = [] := eq_of_follow_slashes (k := 1) h
    rfl
  · have hfront := components_append_slash front ""
    rw [String.append_empty] at hfront
    rw [hfront, follow_append] at h
    obtain ⟨there, hthere, hslash⟩ := bind_eq_ok_iff.mp h
    rw [hjoin, components_append_slash, components_eq_singleton hn, List.dropLast_concat, hthere,
      eq_of_follow_slashes (k := 1) hslash]
  · rw [hjoin, components_append_slash, components_eq_singleton hn, List.dropLast_concat, h]

/-- Slashes at the end of the path of a directory say nothing. -/
theorem placeOf_parent_join (hn : '/' ∉ n.toList) (h : t.placeOf base = .ok here) :
    t.placeOf (parent (join base n)) = .ok here := by
  obtain ⟨k, hbase⟩ := exists_parent_join base hn
  obtain ⟨hnull, hshort, hfollow⟩ := placeOf_eq_ok_iff.mp h
  have hsublist : (parent (join base n)).toList.Sublist base.toList := by
    conv_rhs => rw [hbase]
    rw [String.toList_append]
    exact List.sublist_append_left _ _
  rw [hbase, components_append_slashes, follow_append] at hfollow
  obtain ⟨there, hthere, hslashes⟩ := bind_eq_ok_iff.mp hfollow
  rw [eq_of_follow_slashes hslashes]
  exact placeOf_eq_ok_iff.mpr ⟨fun hmem => hnull (hsublist.subset hmem),
    (utf8ByteSize_le_of_sublist hsublist).trans hshort, hthere⟩

end FileTree

/-! ### Single files -/

namespace FileAction

theorem run_lift_bind {α β : Type} {t : FileTree} (x : Except FileError α) (f : α → FileAction β) :
    ((liftM x : FileAction α) >>= f).run.run t = match x with
      | .ok a => (f a).run.run t
      | .error e => (.error e, t) := by
  cases x <;> rfl

/-- A file that cannot be written leaves the tree as it is. -/
theorem tree_of_writeBytes_error {t t' : FileTree} {path : String} {data : ByteArray} {e : FileError}
    (h : (writeBytes path data).run.run t = (.error e, t')) : t' = t := by
  rw [writeBytes, run_get_bind, run_lift_bind] at h
  split at h
  · dsimp only at h
    rw [run_lift_bind] at h
    split at h
    · split at h
      · split at h
        · cases h
          rfl
        · split at h
          · cases h
            rfl
          · split at h
            · cases h
              rfl
            · cases h
      · cases h
        rfl
    · cases h
      rfl
  · cases h
    rfl

end FileAction

namespace Layout

open FileTree FileAction

variable {l : Layout} {t t' u v : FileTree} {here : List String} {n text path : String} {e : FileError}

/-- Where the path of a file leads, if it leads anywhere. -/
def place (l : Layout) (n : String) : List String := walk [] (parts (join l.directory n))

theorem place_eq (hn : IsStep n) : l.place n = walk [] (parts l.directory) ++ [n] := by
  have hparts : parts (join l.directory n) = parts l.directory ++ [n] := by
    have hname : [n].filter (!isIdle ·) = [n] := filter_of_steps (List.forall_mem_singleton.mpr hn)
    rcases join_cases l.directory (isAbsolute_eq_false hn.slash) with
      ⟨hempty, hjoin⟩ | ⟨front, hfront, hjoin⟩ | ⟨-, -, hjoin⟩
    · rw [hjoin, hempty, parts, components_eq_singleton hn.slash, hname]
      rfl
    · have hslash := components_append_slash front ""
      rw [String.append_empty] at hslash
      rw [hjoin, hfront, parts, components_append_slash, components_eq_singleton hn.slash, List.filter_append, hname,
        parts, hslash, List.filter_append]
      exact congrArg (· ++ [n]) (List.append_nil _).symm
    · rw [hjoin, parts, components_append_slash, components_eq_singleton hn.slash, List.filter_append, hname, parts]
  rw [place, hparts, walk_append]
  rw [walk, if_neg (by simpa using hn.down), walk]

/-- A file of this name can be written, as far as the directory of the layout is there: its path and its name are not
too long, and nothing but a file is there. -/
structure Writable (l : Layout) (t : FileTree) (n : String) : Prop where
  null : '\x00' ∉ (join l.directory n).toList
  short : (join l.directory n).utf8ByteSize ≤ longestPath
  name : isTooLong n = false
  free : ∀ es, t.at? (l.place n) ≠ some (.directory es)

/-- The directory of the layout is there. -/
def Ready (l : Layout) (t : FileTree) : Prop :=
  ∃ here entries, t.placeOf l.directory = .ok here ∧ t.at? here = some (.directory entries)

theorem Ready.of_keeps {changed : List (List String)} (h : l.Ready t) (hkeeps : Keeps changed t u) : l.Ready u := by
  obtain ⟨here, entries, hplace, hhere⟩ := h
  obtain ⟨entries', hhere'⟩ := hkeeps.directories here entries hhere
  exact ⟨here, entries', hkeeps.placeOf hplace, hhere'⟩

theorem ready_of_makeDirectory {x : Unit} (hnamed : t.Named) (hroot : ∃ entries, t = .directory entries)
    (h : (makeDirectory l.directory).Succeeds t x u) : l.Ready u := by
  obtain ⟨cs, v, hlift, hmake⟩ := succeeds_bind.mp h
  obtain ⟨hcs, rfl⟩ := succeeds_lift.mp hlift
  obtain ⟨hnull, hshort, rfl⟩ := componentsOf_eq_ok_iff.mp hcs
  have hchars : ∀ c ∈ components l.directory, '/' ∉ c.toList ∧ '\x00' ∉ c.toList := by
    intro c hc
    refine ⟨slash_not_mem_of_mem_components hc, fun hmem => hnull ?_⟩
    obtain ⟨front, back, hjoin⟩ := Text.exists_joinWith_eq "/" hc
    rw [← joinWith_components l.directory, hjoin]
    simp [hmem]
  obtain ⟨entries, rfl⟩ := hroot
  have hhere : ∃ es, (Node.directory entries).at? [] = some (.directory es) := ⟨entries, rfl⟩
  obtain ⟨here, hfollow, es, hes⟩ := exists_follow_of_makeDirectories hnamed hhere hchars hmake
  exact ⟨here, es, placeOf_eq_ok_iff.mpr ⟨hnull, hshort, hfollow⟩, hes⟩

/-- In a directory that is there, writing a file is no more than writing its text. -/
theorem run_writeFile (h : l.Ready u) (hn : IsStep n) :
    (l.writeFile (n, text)).run.run u = (do
      FileAction.writeText (join l.directory n) text
      return join l.directory n : FileAction String).run.run u := by
  obtain ⟨here, entries, hplace, hhere⟩ := h
  obtain ⟨hnull, hshort, hfollow⟩ := placeOf_eq_ok_iff.mp (placeOf_parent_join hn.slash hplace)
  have hmake : (makeDirectory (parent (join l.directory n))).Succeeds u () u :=
    succeeds_bind.mpr ⟨_, u, succeeds_lift.mpr ⟨componentsOf_eq_ok_iff.mpr ⟨hnull, hshort, rfl⟩, rfl⟩,
      succeeds_makeDirectories_of_follow hfollow ⟨entries, hhere⟩⟩
  rw [writeFile, run_bind, hmake]

/-- A file is written into the directory of the layout. -/
theorem succeeds_writeFile (h : l.Ready u) (hn : IsStep n) :
    (l.writeFile (n, text)).Succeeds u path v ↔
      path = join l.directory n ∧ l.Writable u n ∧ v = u.put (l.place n) (.file text.toUTF8) := by
  rw [Succeeds, run_writeFile h hn]
  obtain ⟨here, entries, hplace, hhere⟩ := h
  obtain ⟨-, -, hfollow⟩ := placeOf_eq_ok_iff.mp hplace
  have hfront := follow_dropLast_join hn.slash hfollow
  have hhere' : walk [] (parts l.directory) = here := (eq_walk_of_placeOf hplace).symm
  have hlast : (components (join l.directory n)).getLast?.getD "" = n := by
    rw [getLast?_components_join _ hn.slash, Option.getD_some]
  have hfree : (∀ es, u.at? (l.place n) ≠ some (.directory es)) ↔
      ∀ es, entries.lookup n ≠ some (.directory es) := by
    rw [place_eq hn, hhere', at?_concat hhere]
    cases entries.lookup n with
    | none => simp
    | some m => simp [Node.at?]
  change FileAction.Succeeds _ _ _ _ ↔ _
  rw [succeeds_bind]
  constructor
  · rintro ⟨_, w, hwrite, hpath⟩
    obtain ⟨rfl, rfl⟩ := succeeds_pure.mp hpath
    obtain ⟨cs, there, es, last, hcs, hthere, hes, rfl, hidle, hdown, hlong, hnone, rfl⟩ :=
      succeeds_writeBytes.mp hwrite
    obtain ⟨hnull, hshort, rfl⟩ := componentsOf_eq_ok_iff.mp hcs
    rw [hfront] at hthere
    cases hthere
    rw [hhere] at hes
    cases hes
    rw [hlast] at hlong hnone ⊢
    exact ⟨rfl, ⟨hnull, hshort, hlong, hfree.mpr hnone⟩, by rw [place_eq hn, hhere']⟩
  · rintro ⟨rfl, hwritable, rfl⟩
    refine ⟨(), _, succeeds_writeBytes.mpr ⟨_, here, entries, n,
      componentsOf_eq_ok_iff.mpr ⟨hwritable.null, hwritable.short, rfl⟩, hfront, hhere, hlast.symm, hn.leads, hn.down,
      hwritable.name, hfree.mp hwritable.free, rfl⟩, ?_⟩
    exact succeeds_pure.mpr ⟨rfl, by rw [place_eq hn, hhere']⟩

/-- A file that cannot be written leaves the tree as it is, if the directory is there. -/
theorem tree_of_writeFile_error (h : l.Ready u) (hn : IsStep n)
    (hrun : (l.writeFile (n, text)).run.run u = (.error e, v)) :
    v = u ∧ ¬ l.Writable u n := by
  constructor
  · rw [run_writeFile h hn, run_bind] at hrun
    split at hrun
    · cases hrun
    · next e' w hwrite =>
      cases hrun
      exact tree_of_writeBytes_error hwrite
  · intro hwritable
    have hsucceeds : (l.writeFile (n, text)).Succeeds u _ _ := (succeeds_writeFile h hn).mpr ⟨rfl, hwritable, rfl⟩
    rw [Succeeds, hrun] at hsucceeds
    cases hsucceeds

/-- Accepted file names lead down one step. -/
theorem isStep_of_isFileName {n : String} (h : Options.IsFileName n) : IsStep n := by
  obtain ⟨module, hmodule, hn⟩ := h.ending
  have hslash := slash_not_mem_of_name_eq h.name
  have hchars : ∃ c cs, n.toList = c :: cs ++ ".ts".toList := by
    cases hlist : module.toList with
    | nil => exact absurd (by simpa using hlist) hmodule
    | cons c cs => exact ⟨c, cs, by rw [hn, String.toList_append, hlist]⟩
  obtain ⟨c, cs, hchars⟩ := hchars
  have hshort (p : String) (hp : p.toList.length < 4) : n ≠ p := by
    rintro rfl
    rw [hchars] at hp
    simp at hp
    omega
  refine ⟨?_, hshort ".." (by decide), hslash⟩
  rw [isIdle, Bool.or_eq_false_iff, String.isEmpty_eq_false_iff, beq_eq_false_iff_ne]
  exact ⟨hshort "" (by decide), hshort "." (by decide)⟩

/-- While the directory of the layout is made nothing changes at the places of files, unless a step back leads there. -/
theorem at?_place_of_makeDirectory (hn : IsStep n) (h : ".." ∉ parts l.directory) :
    ((makeDirectory l.directory).run.run t).2.at? (l.place n) = t.at? (l.place n) := by
  rw [place_eq hn, walk_of_no_steps_back h, List.nil_append]
  have hmade : Made (· <+: parts l.directory) t ((makeDirectory l.directory).run.run t).2 := by
    refine made_makeDirectory fun front hfront => ?_
    have hsteps := hfront.filter (!isIdle ·)
    rwa [walk_of_no_steps_back fun hmem => h (hsteps.subset hmem), List.nil_append]
  refine hmade.at?_eq fun hprefix => ?_
  have hlength := hprefix.length_le
  rw [List.length_append, List.length_singleton] at hlength
  omega

/-- Whether a file can be written does not depend on whether its directory has been made before. -/
theorem writable_iff_of_makeDirectory (hn : IsStep n) (hup : ".." ∉ parts l.directory)
    (h : (makeDirectory l.directory).Succeeds t () u) : l.Writable u n ↔ l.Writable t n := by
  have hat : ((makeDirectory l.directory).run.run t).2.at? (l.place n) = t.at? (l.place n) :=
    at?_place_of_makeDirectory hn hup
  rw [h] at hat
  constructor
  · exact fun hw => ⟨hw.null, hw.short, hw.name, fun es => hat ▸ hw.free es⟩
  · exact fun hw => ⟨hw.null, hw.short, hw.name, fun es => hat.symm ▸ hw.free es⟩

/-- Different names are different places in a directory. -/
theorem place_ne {m : String} (hn : IsStep n) (hm : IsStep m) (hne : n ≠ m) : l.place n ≠ l.place m := by
  rw [place_eq hn, place_eq hm]
  exact fun hsame => hne (List.cons.inj (List.append_cancel_left hsame)).1

/-- A file does not show at the place of another one. -/
theorem at?_put_of_ne {m : String} {data : ByteArray} (h : l.Ready u) (hn : IsStep n) (hm : IsStep m) (hne : n ≠ m) :
    (u.put (l.place m) (.file data)).at? (l.place n) = u.at? (l.place n) := by
  obtain ⟨here, entries, hplace, hhere⟩ := h
  rw [eq_walk_of_placeOf hplace] at hhere
  have hapart {a b : String} (hab : a ≠ b) :
      ¬ walk [] (parts l.directory) ++ [a] <+: walk [] (parts l.directory) ++ [b] := by
    rw [List.prefix_append_right_inj]
    simpa using hab
  rw [place_eq hn, place_eq hm]
  exact Node.at?_put_of_apart hhere (hapart hne.symm) (hapart hne)

/-- A file that was written is there, and everything else is as it was. -/
theorem Writable.keeps_put {data : ByteArray} (h : l.Writable u n) (hn : IsStep n) (hready : l.Ready u) :
    (u.put (l.place n) (.file data)).at? (l.place n) = some (.file data) ∧
      Keeps [l.place n] u (u.put (l.place n) (.file data)) := by
  obtain ⟨here, entries, hplace, hhere⟩ := hready
  have hfree := h.free
  rw [place_eq hn, ← eq_walk_of_placeOf hplace] at hfree ⊢
  refine ⟨Node.at?_put_self hhere [], keeps_put_file hhere (fun es hes => hfree es ?_) data⟩
  rw [at?_concat hhere, hes]
  rfl

/-- Writing two files has failed: either nothing but the directory has been made, as far as possible, or the first file
has been written and it is the second one that cannot be. -/
theorem cases_of_writeFiles_error {m other : String} (ht : t.Proper) (hn : IsStep n) (hm : IsStep m) (hne : m ≠ n)
    (h : (makeDirectory l.directory >>= fun _ => [(n, text), (m, other)].mapM l.writeFile).run.run t = (.error e, t')) :
    (¬ ∃ u, (makeDirectory l.directory).Succeeds t () u ∧ l.Writable u n) ∧
        t' = ((makeDirectory l.directory).run.run t).2 ∨
      ∃ u, (makeDirectory l.directory).Succeeds t () u ∧ l.Ready u ∧ l.Writable u n ∧ ¬ l.Writable u m ∧
        t' = u.put (l.place n) (.file text.toUTF8) := by
  rw [run_bind] at h
  split at h
  · next _ u hmake =>
    have hready : l.Ready u := ready_of_makeDirectory ht.named ht.root hmake
    rw [List.mapM_cons, run_bind] at h
    split at h
    · next _ v hfirst =>
      obtain ⟨-, hwritable, rfl⟩ := (succeeds_writeFile hready hn).mp hfirst
      refine .inr ⟨u, hmake, hready, hwritable, ?_⟩
      rw [List.mapM_cons, List.mapM_nil, bind_assoc, run_bind] at h
      split at h
      · cases h
      · next e' w hsecond =>
        cases h
        obtain ⟨rfl, hother⟩ :=
          tree_of_writeFile_error (hready.of_keeps (hwritable.keeps_put hn hready).2) hm hsecond
        refine ⟨fun hyes => hother ⟨hyes.null, hyes.short, hyes.name, fun es hes => hyes.free es ?_⟩, rfl⟩
        rwa [at?_put_of_ne hready hm hn hne] at hes
    · next e' v hfirst =>
      cases h
      obtain ⟨rfl, hunwritable⟩ := tree_of_writeFile_error hready hn hfirst
      refine .inl ⟨?_, by rw [hmake]⟩
      rintro ⟨w, hother, hwritable⟩
      cases hmake.symm.trans hother
      exact hunwritable hwritable
  · next e' u hmake =>
    cases h
    refine .inl ⟨?_, by rw [hmake]⟩
    rintro ⟨w, hother, -⟩
    cases hmake.symm.trans hother

end Layout

/-! ### Both files -/

open FileTree FileAction in
/-- If not both files can be written, the one for the operations is as it was, and so is every other file but the one
for the schema. That one is as it was unless it can be written: then it has the new text, and it is only the file for
the operations that cannot be written. Missing files may have become directories if the path of the output directory
leads there and back again. -/
theorem pair_of_failed_write {given : Options.Settings} {o : Options} (ho : Options.check given = .ok o)
    (hnames : o.schemaFileName ≠ o.operationsFileName) {directory : String} {header : Option String} {c : Compilation}
    (hops : c.operations ≠ []) {t t' : FileTree} {e : FileError} (ht : t.Proper)
    (h : ((o.layout directory header).write c).run.run t = (.error e, t')) :
    let l := o.layout directory header
    let schema := l.place o.schemaFileName
    let operations := l.place o.operationsFileName
    operations ≠ schema ∧
    (∀ place, place ≠ schema → ∀ data, t'.at? place = some (.file data) ↔ t.at? place = some (.file data)) ∧
    (∀ place es, t.at? place = some (.directory es) → ∃ es', t'.at? place = some (.directory es')) ∧
    (".." ∉ parts directory → t'.at? operations = t.at? operations) ∧
    ((∃ u, (makeDirectory directory).Succeeds t () u ∧ l.Writable u o.schemaFileName ∧
          ¬ l.Writable u o.operationsFileName) ∧
        t'.at? schema = some (.file (l.schemaText c).toUTF8) ∨
      (¬ ∃ u, (makeDirectory directory).Succeeds t () u ∧ l.Writable u o.schemaFileName) ∧
        (∀ data, t'.at? schema = some (.file data) ↔ t.at? schema = some (.file data)) ∧
        (".." ∉ parts directory → t'.at? schema = t.at? schema)) ∧
    (".." ∉ parts directory → ∀ u, (makeDirectory directory).Succeeds t () u →
      ∀ n ∈ [o.schemaFileName, o.operationsFileName], l.Writable u n ↔ l.Writable t n) := by
  intro l schema operations
  obtain ⟨hschema, hoperations⟩ := Options.isFileName_of_check ho
  have hsteps : ∀ n ∈ [o.schemaFileName, o.operationsFileName], IsStep n := by
    simp [Layout.isStep_of_isFileName hschema, Layout.isStep_of_isFileName hoperations]
  have hschemaStep := hsteps o.schemaFileName (by simp)
  have hoperationsStep := hsteps o.operationsFileName (by simp)
  have hplaces : operations ≠ schema := Layout.place_ne hoperationsStep hschemaStep hnames.symm
  have hplain (hup : ".." ∉ parts directory) (n : String) (hn : n ∈ [o.schemaFileName, o.operationsFileName]) :
      ((makeDirectory directory).run.run t).2.at? (l.place n) = t.at? (l.place n) :=
    Layout.at?_place_of_makeDirectory (l := l) (hsteps n hn) hup
  have hkeeps : Keeps [] t ((makeDirectory directory).run.run t).2 :=
    (made_makeDirectory (Q := fun _ => True) fun _ _ => trivial).keeps
  have hwritable (hup : ".." ∉ parts directory) (u : FileTree) (hu : (makeDirectory directory).Succeeds t () u)
      (n : String) (hn : n ∈ [o.schemaFileName, o.operationsFileName]) : l.Writable u n ↔ l.Writable t n :=
    Layout.writable_iff_of_makeDirectory (l := l) (hsteps n hn) hup hu
  have hfiles : l.files c = [(o.schemaFileName, l.schemaText c), (o.operationsFileName, l.operationsText c)] := by
    rw [Layout.files, if_neg (by simpa using hops)]
    rfl
  rw [Layout.write, hfiles] at h
  rcases Layout.cases_of_writeFiles_error ht hschemaStep hoperationsStep hnames.symm h with
    ⟨hnever, rfl⟩ | ⟨u, hmake, hready, hwritten, hunwritable, rfl⟩
  · -- nothing but directories has been made
    exact ⟨hplaces, fun place _ => hkeeps.files place List.not_mem_nil, hkeeps.directories,
      fun hup => hplain hup _ (by simp),
      .inr ⟨hnever, hkeeps.files schema List.not_mem_nil, fun hup => hplain hup _ (by simp)⟩, hwritable⟩
  · -- the second file cannot be written
    have hput : Keeps [schema] u (u.put schema (.file (l.schemaText c).toUTF8)) :=
      (hwritten.keeps_put hschemaStep hready).2
    have hthere : Node.at? (u.put schema (.file (l.schemaText c).toUTF8)) schema =
        some (.file (l.schemaText c).toUTF8) := (hwritten.keeps_put hschemaStep hready).1
    have hother : Node.at? (u.put schema (.file (l.schemaText c).toUTF8)) operations = u.at? operations :=
        Layout.at?_put_of_ne hready hoperationsStep hschemaStep hnames.symm
    have hmade : (makeDirectory directory).Succeeds t () u := hmake
    change (makeDirectory directory).run.run t = _ at hmake
    rw [hmake] at hkeeps hplain
    have hall := hkeeps.trans hput
    exact ⟨hplaces, fun place hplace => hall.files place (by simpa using hplace), hall.directories,
      fun hup => hother.trans (hplain hup _ (by simp)), .inl ⟨⟨u, hmade, hwritten, hunwritable⟩, hthere⟩, hwritable⟩

/-- The file for the schema is written before it turns out that a directory stands where that for the operations
belongs. -/
theorem schema_of_failed_write :
    let given : Options.Settings :=
      [("schema", .list [.text "s"]), ("output_path", .text "/o"), ("base_path", .text "/")]
    let t : FileTree := .directory [("o", .directory [("operations.ts", .directory [])])]
    ∃ o s c t', Options.check given = .ok o ∧ o.schemaFileName ≠ o.operationsFileName ∧
      buildSchema "type Query \x7b a: Int \x7d" = .ok s ∧ compile s o.display "query Q \x7b a \x7d" = .ok c ∧
      c.operations ≠ [] ∧ ((o.layout "/o" none).write c).run.run t = (.error .isDirectory, t') ∧
      t.at? ["o", "schema.ts"] = none ∧
      t'.at? ["o", "schema.ts"] = some (.file ((o.layout "/o" none).schemaText c).toUTF8) := by
  intro given t
  have hrun : ((Options.check given).toOption.bind fun o =>
      (buildSchema "type Query \x7b a: Int \x7d").toOption.bind fun s =>
      (compile s o.display "query Q \x7b a \x7d").toOption.map fun c =>
        let after := ((o.layout "/o" none).write c).run.run t
        (match after.1 with | .error e => some e | .ok _ => none,
          decide ((FileTree.read after.2 "/o/schema.ts").toOption = some ((o.layout "/o" none).schemaText c).toUTF8),
          decide (o.schemaFileName = o.operationsFileName), c.operations.isEmpty)) =
      some (some .isDirectory, true, false, false) := by
    decide +kernel
  obtain ⟨o, ho, hrun⟩ := Option.bind_eq_some_iff.mp hrun
  obtain ⟨s, hs, hrun⟩ := Option.bind_eq_some_iff.mp hrun
  obtain ⟨c, hc, hrun⟩ := Option.map_eq_some_iff.mp hrun
  simp only [Prod.mk.injEq] at hrun
  obtain ⟨hwrite, hfile, hnames, hops⟩ := hrun
  rw [toOption_eq_some_iff] at ho hs hc
  refine ⟨o, s, c, _, ho, of_decide_eq_false hnames, hs, hc, by simpa using hops, Prod.ext ?_ rfl, rfl, ?_⟩
  · split at hwrite
    · next e he => rw [he, Option.some.inj hwrite]
    · cases hwrite
  · have hread := FileTree.read_eq_ok_iff.mp (toOption_eq_some_iff.mp (of_decide_eq_true hfile))
    obtain ⟨place, hplace, hdata⟩ := FileTree.node_eq_ok_iff.mp hread
    rw [FileTree.eq_walk_of_placeOf hplace] at hdata
    exact hdata

/-- A directory is in the way of the file for the schema. -/
theorem pair_of_failed_write_of_directory :
    let given : Options.Settings :=
      [("schema", .list [.text "s"]), ("output_path", .text "/o"), ("base_path", .text "/")]
    let old : Node := .file "old".toUTF8
    let t : FileTree := .directory [("o", .directory [("schema.ts", .directory []), ("operations.ts", old)])]
    ∃ o s c t', Options.check given = .ok o ∧ o.schemaFileName ≠ o.operationsFileName ∧
      buildSchema "type Query \x7b a: Int \x7d" = .ok s ∧ compile s o.display "query Q \x7b a \x7d" = .ok c ∧
      c.operations ≠ [] ∧ t.Proper ∧ ((o.layout "/o" none).write c).run.run t = (.error .isDirectory, t') ∧
      t'.at? ["o", "schema.ts"] = some (.directory []) ∧ t'.at? ["o", "operations.ts"] = some old := by
  intro given old t
  have hrun : ((Options.check given).toOption.bind fun o =>
      (buildSchema "type Query \x7b a: Int \x7d").toOption.bind fun s =>
      (compile s o.display "query Q \x7b a \x7d").toOption.map fun c =>
        (match (((o.layout "/o" none).write c).run.run t).1 with | .error e => some e | .ok _ => none,
          o.schemaFileName, o.operationsFileName, c.operations.isEmpty)) =
      some (some .isDirectory, "schema.ts", "operations.ts", false) := by
    decide +kernel
  obtain ⟨o, ho, hrun⟩ := Option.bind_eq_some_iff.mp hrun
  obtain ⟨s, hs, hrun⟩ := Option.bind_eq_some_iff.mp hrun
  obtain ⟨c, hc, hrun⟩ := Option.map_eq_some_iff.mp hrun
  simp only [Prod.mk.injEq] at hrun
  obtain ⟨hwrite, hschema, hoperations, hops⟩ := hrun
  rw [toOption_eq_some_iff] at ho hs hc
  have hnames : o.schemaFileName ≠ o.operationsFileName := by
    rw [hschema, hoperations]
    decide
  have hops : c.operations ≠ [] := by simpa using hops
  have ht : t.Proper := by
    refine FileTree.proper_directory (by decide +kernel) (by decide) fun entry hentry es hes => ?_
    obtain rfl := List.mem_singleton.mp hentry
    cases hes
    refine FileTree.proper_directory (by decide +kernel) (by decide) fun entry hentry es hes => ?_
    rcases List.mem_pair.mp hentry with rfl | rfl
    · cases hes
      exact FileTree.proper_directory (by simp) (by simp) (by simp)
    · cases hes
  have hfail : ((o.layout "/o" none).write c).run.run t =
      (.error .isDirectory, (((o.layout "/o" none).write c).run.run t).2) := by
    refine Prod.ext ?_ rfl
    split at hwrite
    · next e he => rw [he, Option.some.inj hwrite]
    · cases hwrite
  obtain ⟨-, -, hdirectories, hsame, hpair, -⟩ := pair_of_failed_write ho hnames hops ht hfail
  have hup : ".." ∉ parts "/o" := by decide +kernel
  have hplace : (o.layout "/o" none).place o.schemaFileName = ["o", "schema.ts"] := by
    rw [hschema]
    exact (by decide +kernel : walk [] (parts (join "/o" "schema.ts")) = ["o", "schema.ts"])
  have hother : (o.layout "/o" none).place o.operationsFileName = ["o", "operations.ts"] := by
    rw [hoperations]
    exact (by decide +kernel : walk [] (parts (join "/o" "operations.ts")) = ["o", "operations.ts"])
  rw [hplace] at hpair
  rw [hother] at hsame
  refine ⟨o, s, c, _, ho, hnames, hs, hc, hops, ht, hfail, ?_, hsame hup⟩
  rcases hpair with ⟨-, hwritten⟩ | ⟨-, -, hschema⟩
  · obtain ⟨es, hes⟩ := hdirectories ["o", "schema.ts"] [] rfl
    rw [hes] at hwritten
    cases hwritten
  · exact hschema hup

end GraphDecl
