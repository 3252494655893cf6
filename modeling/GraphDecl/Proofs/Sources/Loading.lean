import GraphDecl.Source
import GraphDecl.Proofs.Imports
import GraphDecl.Proofs.Outcome
import GraphDecl.Proofs.Text.Pieces

/-!
What sources load to. The texts of their pieces stand on lines of their own, in order, and the first piece that
cannot be loaded ends the loading. Everything that some pattern matches is one of the pieces.
-/

namespace GraphDecl

namespace Source

/-! ### Texts without the log -/

variable {ε α β : Type}

/-- The work has this outcome, whatever was logged before. -/
def Logged.HasOutcome (x : Logged ε α) (y : Except ε α) : Prop := ∀ log, (x.run.run log).1 = y

theorem Logged.hasOutcome_lift (y : Except ε α) : HasOutcome (liftM y) y := by
  intro log
  cases y <;> rfl

theorem Logged.hasOutcome_note (entry : LogEntry) : HasOutcome (note (ε := ε) entry) (.ok ()) :=
  fun _ => rfl

theorem Logged.hasOutcome_pure (a : α) : HasOutcome (ε := ε) (pure a) (.ok a) := fun _ => rfl

/-- What is logged has no influence on what comes next. -/
theorem Logged.HasOutcome.bind {x : Logged ε α} {y : Except ε α} {f : α → Logged ε β}
    {g : α → Except ε β} (hx : HasOutcome x y) (hf : ∀ a, HasOutcome (f a) (g a)) :
    HasOutcome (x >>= f) (y >>= g) := by
  intro log
  have hlog := hx log
  rw [run_bind]
  cases hstep : x.run.run log with
  | mk outcome log' =>
    rw [hstep] at hlog
    subst hlog
    cases outcome with
    | error e => rfl
    | ok a => exact hf a log'

theorem Logged.HasOutcome.mapM {f : α → Logged ε β} {g : α → Except ε β}
    (hf : ∀ a, HasOutcome (f a) (g a)) (xs : List α) : HasOutcome (xs.mapM f) (xs.mapM g) := by
  induction xs with
  | nil =>
    rw [List.mapM_nil, List.mapM_nil]
    exact hasOutcome_pure []
  | cons x xs ih =>
    rw [List.mapM_cons, List.mapM_cons]
    exact (hf x).bind fun b => ih.bind fun bs => hasOutcome_pure (b :: bs)

def texts (w : World) (base : String) (sources : List String) : Except LoadError (List String) := do
  let texts ← sources.mapM fun source => do
    let ps ← pieces w base source
    ps.mapM (·.load w)
  return texts.flatten

/-- What is loaded does not depend on the log. -/
theorem load_eq (w : World) (base : String) (sources : List String) :
    load w base sources = Text.joinWith "\n" <$> texts w base sources := by
  have hpiece (p : Piece) : Logged.HasOutcome (loadPiece w p) (p.load w) :=
    (Logged.hasOutcome_note p.logEntry).bind fun _ => Logged.hasOutcome_lift (p.load w)
  have hsource (source : String) : Logged.HasOutcome (loadSource w base source) (do
      let ps ← pieces w base source
      ps.mapM (·.load w)) :=
    (Logged.hasOutcome_lift _).bind fun ps => .mapM hpiece ps
  have hload := (Logged.HasOutcome.mapM hsource sources).bind fun texts =>
    Logged.hasOutcome_pure (Text.joinWith "\n" texts.flatten)
  have hjoined := hload []
  have hmap : Text.joinWith "\n" <$> texts w base sources = ((sources.mapM fun source => do
      let ps ← pieces w base source
      ps.mapM (·.load w)) >>= fun texts => .ok (Text.joinWith "\n" texts.flatten)) := by
    unfold texts
    rw [map_eq_pure_bind, bind_assoc]
    rfl
  rw [hmap]
  exact hjoined

/-! ### One source after the other -/

variable {w : World} {base source : String} {sources : List String}

def textsOf (w : World) (base source : String) : Except LoadError (List String) := do
  let ps ← pieces w base source
  ps.mapM (·.load w)

/-- The texts of sources are those of their pieces, joined by line feeds. -/
theorem load_eq_bind (w : World) (base : String) (sources : List String) :
    load w base sources =
      sources.mapM (textsOf w base) >>= fun parts => .ok (Text.joinWith "\n" parts.flatten) := by
  rw [load_eq, texts, map_eq_pure_bind, bind_assoc]
  rfl

theorem load_eq_ok_iff {text : String} :
    load w base sources = .ok text ↔
      ∃ parts, sources.mapM (textsOf w base) = .ok parts ∧ Text.joinWith "\n" parts.flatten = text := by
  simp [load_eq_bind, bind_eq_ok_iff]

/-- Sources load if each of them does. -/
theorem exists_load_eq_ok_iff :
    (∃ text, load w base sources = .ok text) ↔ ∀ source ∈ sources, ∃ texts, textsOf w base source = .ok texts := by
  rw [← exists_mapM_eq_ok_iff]
  simp [load_eq_ok_iff]

/-- Loading fails with the first source that fails. -/
theorem load_eq_error_iff {e : LoadError} :
    load w base sources = .error e ↔ ∃ front source back, sources = front ++ source :: back ∧
      (∃ text, load w base front = .ok text) ∧ textsOf w base source = .error e := by
  have hfail : load w base sources = .error e ↔ sources.mapM (textsOf w base) = .error e := by
    simp [load_eq_bind, bind_eq_error_iff]
  rw [hfail, mapM_eq_error_iff]
  simp only [exists_load_eq_ok_iff, exists_mapM_eq_ok_iff]

theorem textsOf_of_isUrl (h : isUrl source = true) :
    textsOf w base source = (fun text => [text]) <$> fetch w.web source := by
  rw [textsOf, pieces, if_pos h, map_eq_pure_bind]
  change [Piece.url source].mapM (·.load w) = _
  rw [List.mapM_cons]
  rfl

theorem textsOf_of_patterns (h : isUrl source = false) :
    textsOf w base source = match Glob.paths w.tree base source with
      | .error e => .error (.file e)
      | .ok [] => .error (.source (.noMatch source base))
      | .ok paths => paths.mapM (readPath w) := by
  rw [textsOf, pieces, if_neg (by simp [h])]
  cases Glob.paths w.tree base source with
  | error e => rfl
  | ok paths =>
    cases paths with
    | nil => rfl
    | cons path paths =>
      change ((path :: paths).map Piece.path).mapM (·.load w) = _
      rw [List.mapM_map]
      rfl

/-! ### Patterns -/

def patterns (source : String) : List String := (Text.pieces ',' source).filter (!Text.allBlank ·)

def matched (t : FileTree) (base pattern : String) : Except FileError (List String) :=
  Glob.expand t false (Glob.withBase base pattern).toList

/-- The paths of a source are those of its patterns, sorted for each of them, without repetitions.
-/
theorem paths_eq_bind (t : FileTree) (base source : String) :
    Glob.paths t base source =
      (patterns source).mapM (fun p => Glob.sortTexts <$> matched t base p) >>= fun found =>
        .ok (firstOccurrences found.flatten) :=
  rfl

theorem exists_paths_iff {t : FileTree} :
    (∃ paths, Glob.paths t base source = .ok paths) ↔
      ∀ p ∈ patterns source, ∃ found, matched t base p = .ok found := by
  have hlist : (∃ paths, Glob.paths t base source = .ok paths) ↔
      ∃ found, (patterns source).mapM (fun p => Glob.sortTexts <$> matched t base p) = .ok found := by
    simp [paths_eq_bind, bind_eq_ok_iff]
  rw [hlist, exists_mapM_eq_ok_iff]
  simp [map_eq_ok_iff]

/-- A path is found if one of the patterns matches it. -/
theorem mem_iff_of_paths {t : FileTree} {paths : List String} (h : Glob.paths t base source = .ok paths)
    {path : String} :
    path ∈ paths ↔ ∃ p ∈ patterns source, ∃ found, matched t base p = .ok found ∧ path ∈ found := by
  rw [paths_eq_bind] at h
  obtain ⟨found, hfound, h⟩ := bind_eq_ok_iff.mp h
  cases h
  rw [mem_firstOccurrences, List.mem_flatten]
  simp only [mem_iff_of_mapM hfound, map_eq_ok_iff]
  constructor
  · rintro ⟨_, ⟨p, hp, found, hmatched, rfl⟩, hpath⟩
    exact ⟨p, hp, found, hmatched, List.mem_mergeSort.mp hpath⟩
  · rintro ⟨p, hp, found, hmatched, hpath⟩
    exact ⟨_, ⟨p, hp, found, hmatched, rfl⟩, List.mem_mergeSort.mpr hpath⟩

theorem paths_eq_nil_of_matched {t : FileTree} (h : ∀ p ∈ patterns source, matched t base p = .ok []) :
    Glob.paths t base source = .ok [] := by
  obtain ⟨paths, hpaths⟩ := exists_paths_iff.mpr fun p hp => ⟨[], h p hp⟩
  rw [hpaths, Except.ok.injEq, List.eq_nil_iff_forall_not_mem]
  intro path hpath
  obtain ⟨p, hp, found, hmatched, hmem⟩ := (mem_iff_of_paths hpaths).mp hpath
  rw [h p hp] at hmatched
  cases hmatched
  cases hmem

theorem exists_paths_of_textsOf {texts : List String} (hurl : isUrl source = false)
    (h : textsOf w base source = .ok texts) :
    ∃ paths, Glob.paths w.tree base source = .ok paths ∧ paths ≠ [] ∧
      paths.mapM (readPath w) = .ok texts := by
  rw [textsOf_of_patterns hurl] at h
  split at h
  · cases h
  · cases h
  · next paths hne hpaths => exact ⟨paths, hpaths, hne, h⟩

def Finds (t : FileTree) (base pattern path : String) : Prop :=
  ∃ found, matched t base pattern = .ok found ∧ path ∈ found

/-- The source has a pattern that matches beside one that does not. -/
def Mixed (t : FileTree) (base source : String) : Prop :=
  ∃ p ∈ patterns source, ∃ q ∈ patterns source, (∃ path, Finds t base p path) ∧ ¬ ∃ path, Finds t base q path

end Source

end GraphDecl
