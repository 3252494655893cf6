import GraphDecl.CommandLine.Run
import GraphDecl.Proofs.Files.Templates
import GraphDecl.Proofs.Files.WrittenFiles

/-!
Runs that are rejected. Files are written last, when everything has been loaded and compiled, and from then on only a
template of the user's can make a run end with an error message. So a run that ends with any other leaves the tree as it
was.
-/

namespace GraphDecl.CommandLine

namespace Run

variable {α β γ : Type}

/-! ### Steps that only show and note something -/

/-- The step leaves the tree alone, and if the run goes on, then with a result that has the property. -/
structure Quiet (a : Run α) (P : α → Prop) : Prop where
  tree : ∀ p, (a.run.run p).2.tree = p.tree
  result : ∀ p x, (a.run.run p).1 = .ok x → P x

theorem quiet_pure {P : α → Prop} {x : α} (h : P x) : Quiet (pure x) P := by
  constructor
  · exact fun _ => rfl
  · rintro p y hy
    cases hy
    exact h

theorem quiet_throw (stop : Stop) (P : α → Prop) : Quiet (throw stop) P :=
  ⟨fun _ => rfl, nofun⟩

theorem quiet_get : Quiet get fun _ => True := ⟨fun _ => rfl, fun _ _ _ => trivial⟩

theorem quiet_modify {change : Progress → Progress} (h : ∀ p, (change p).tree = p.tree) :
    Quiet (modify change) fun _ => True :=
  ⟨h, fun _ _ _ => trivial⟩

/-- Steps that leave the files alone leave them alone one after the other. -/
theorem Quiet.bind {a : Run α} {f : α → Run β} {P : α → Prop} {Q : β → Prop} (ha : Quiet a P)
    (hf : ∀ x, P x → Quiet (f x) Q) : Quiet (a >>= f) Q := by
  constructor
  · intro p
    have htree := ha.tree p
    rw [run_bind]
    split
    · next x q hstep =>
      rw [hstep] at htree
      exact ((hf x (ha.result p x (by rw [hstep]))).tree q).trans htree
    · next e q hstep =>
      rw [hstep] at htree
      exact htree
  · intro p y hy
    rw [run_bind] at hy
    split at hy
    · next x q hstep => exact (hf x (ha.result p x (by rw [hstep]))).result q y hy
    · cases hy

theorem Quiet.discard {a : Run α} {P : α → Prop} (ha : Quiet a P) : Quiet (discard a) fun _ => True := by
  have hdiscard : Functor.discard a = a >>= fun _ => pure () := by
    rw [Functor.discard, map_const, Function.comp_apply, map_eq_pure_bind]
  rw [hdiscard]
  exact ha.bind fun _ _ => quiet_pure trivial

theorem Quiet.forM {f : γ → Run Unit} (h : ∀ x, Quiet (f x) fun _ => True) (xs : List γ) :
    Quiet (xs.forM f) fun _ => True := by
  induction xs with
  | nil => exact quiet_pure trivial
  | cons x xs ih => exact (h x).bind fun _ _ => ih

/-- A loop, which may end early. -/
theorem Quiet.forIn {f : γ → β → Run (ForInStep β)} (h : ∀ x b, Quiet (f x b) fun _ => True)
    (xs : List γ) (init : β) : Quiet (forIn xs init f) fun _ => True := by
  induction xs generalizing init with
  | nil => exact quiet_pure trivial
  | cons x xs ih =>
    rw [List.forIn_cons]
    refine (h x init).bind fun step _ => ?_
    cases step with
    | done b => exact quiet_pure trivial
    | yield b => exact ih b

end Run

open Run

/-! ### What comes before the writing -/

theorem quiet_echo (line : String) : Quiet (echo line) fun _ => True := quiet_modify fun _ => rfl

theorem quiet_logEntry (e : LogEntry) : Quiet (logEntry e) fun _ => True := by
  refine quiet_modify fun p => ?_
  split
  · rfl
  · rfl

/-- What is wrong with the command line is told without touching a file. -/
theorem quiet_usageError {α : Type} (c : Command) (message : String) (P : α → Prop) :
    Quiet (usageError c message) P :=
  quiet_throw _ P

theorem quiet_parsed {α : Type} (c : Command) (p : Except ArgumentError (Parsed α)) :
    Quiet (parsed c p) fun x => p = .ok x := by
  cases p with
  | ok p => exact quiet_pure rfl
  | error e => cases e <;> exact quiet_throw _ _

theorem quiet_checkDirectory (t : FileTree) (cwd : String) (o : CompileOption) (needed : Bool)
    (path : String) : Quiet (checkDirectory t cwd o needed path) fun _ => True := by
  have hmissing : Quiet (checkDirectory.missing o needed path) fun _ => True := by
    unfold checkDirectory.missing
    split
    · exact quiet_usageError _ _ _
    · exact quiet_pure trivial
  unfold checkDirectory
  split
  · exact quiet_throw _ _
  · split
    · exact hmissing
    · split
      · exact quiet_usageError _ _ _
      · exact quiet_pure trivial
  · exact hmissing

theorem quiet_checkValue (t : FileTree) (cwd : String) (o : CompileOption) (value : String) :
    Quiet (checkValue t cwd o value) fun _ => True := by
  unfold checkValue
  split
  · exact quiet_checkDirectory t cwd _ false value
  · exact quiet_checkDirectory t cwd _ true value
  · exact quiet_checkDirectory t cwd _ true value
  · split
    · exact quiet_pure trivial
    · exact quiet_usageError _ _ _
  · exact quiet_pure trivial

/-- Checking options looks at files and writes none. -/
theorem quiet_checkOptions (t : FileTree) (cwd : String) (options : List (CompileOption × String)) :
    Quiet (checkOptions t cwd options) fun _ => True := by
  refine Quiet.bind (Quiet.forIn (fun o _ => ?_) _ _) fun early _ => ?_
  · split
    · exact (quiet_checkValue t cwd o _).bind fun _ _ => quiet_pure trivial
    · exact quiet_pure trivial
  · dsimp only
    split
    · exact quiet_pure trivial
    · refine Quiet.bind (Quiet.forIn (fun o _ => ?_) _ _) fun _ _ => quiet_pure trivial
      split
      · exact (quiet_usageError _ _ fun _ => True).bind fun _ _ => quiet_pure trivial
      · exact quiet_pure trivial

theorem quiet_refuseExtra (rest : List String) : Quiet (refuseExtra rest) fun _ => True := by
  unfold refuseExtra
  split
  · exact quiet_pure trivial
  · exact quiet_usageError _ _ _
  · exact quiet_usageError _ _ _

/-- Options of the program are read without touching a file; the arguments behind them are left. -/
theorem quiet_programArguments (args : List String) : Quiet (programArguments args) fun rest =>
    ∃ p, parseArguments programOptions false none args = .ok p ∧ p.rest = rest := by
  refine (quiet_parsed .program _).bind fun p hp => ?_
  split
  · exact quiet_throw _ _
  · exact quiet_throw _ _
  · exact quiet_pure ⟨p, hp, rfl⟩

/-- Sources are loaded without touching a file of the tree, and the text is that of the sources. -/
theorem quiet_loadSources (w : World) (base : String) (sources : List String) :
    Quiet (loadSources w base sources) fun text => Source.load w base sources = .ok text := by
  unfold loadSources
  split
  next result entries hload =>
    refine (Quiet.forM quiet_logEntry entries).bind fun _ _ => ?_
    split
    · refine quiet_pure ?_
      rw [Source.load, hload]
    · exact quiet_throw _ _
    · exact quiet_throw _ _
    · exact quiet_throw _ _

theorem quiet_build (text : String) : Quiet (build text) fun s => buildSchema text = .ok s := by
  unfold build
  split
  · next hbuild => exact quiet_pure hbuild
  · exact quiet_throw _ _
  · exact quiet_throw _ _
  · exact quiet_throw _ _

/-- Compiling touches no file, and gives the compilation of the text. -/
theorem quiet_compileText (s : Schema) (o : Options) (text : String) :
    Quiet (compileText s o text) fun c => compile s o.display text = .ok c := by
  refine (Quiet.forM quiet_logEntry _).bind fun _ _ => ?_
  split
  · next hcompile => exact quiet_pure hcompile
  · exact quiet_throw _ _
  · exact quiet_throw _ _

/-! ### Writing -/

namespace Run

variable {α β : Type}

/-- The step does to the tree what the action does, and ends the run where the action fails. -/
def Performs (r : Run α) (a : WriteAction α) : Prop :=
  ∀ p, (r.run.run p).1 = (a.run.run p.tree).1.mapError stopOf ∧ (r.run.run p).2.tree = (a.run.run p.tree).2

/-- A step on files alone changes the tree of a run as it would change a tree by itself. -/
theorem performs_onTree (a : WriteAction α) : Performs (onTree a) a := by
  intro p
  have hget : (get : Run Progress).run.run p = (.ok p, p) := rfl
  rw [onTree, run_bind, hget]
  dsimp only
  generalize a.run.run p.tree = done
  obtain ⟨_ | x, t⟩ := done
  · exact ⟨rfl, rfl⟩
  · exact ⟨rfl, rfl⟩

theorem performs_pure (x : α) : Performs (pure x) (pure x) := fun _ => ⟨rfl, rfl⟩

/-- What runs do to their trees can be put together from what steps on files do. -/
theorem Performs.bind {r : Run α} {a : WriteAction α} {f : α → Run β} {g : α → WriteAction β}
    (hr : Performs r a) (hf : ∀ x, Performs (f x) (g x)) : Performs (r >>= f) (a >>= g) := by
  intro p
  obtain ⟨hresult, htree⟩ := hr p
  rw [run_bind, run_bind]
  generalize hstep : r.run.run p = step at hresult htree ⊢
  generalize a.run.run p.tree = done at hresult htree ⊢
  obtain ⟨result, q⟩ := step
  obtain ⟨_ | x, t⟩ := done
  · cases hresult
    cases htree
    exact ⟨rfl, rfl⟩
  · cases hresult
    cases htree
    exact hf x q

/-- Notes do not matter. -/
theorem Performs.bind_quiet {r : Run α} {a : WriteAction α} (hr : Performs r a) {note : α → Run Unit}
    (hnote : ∀ x p, ((note x).run.run p).1 = .ok () ∧ ((note x).run.run p).2.tree = p.tree) :
    Performs (r >>= fun x => do note x; return x) a := by
  have hpure : Performs (r >>= fun x => do note x; return x) (a >>= pure) := by
    refine hr.bind fun x p => ?_
    obtain ⟨hresult, htree⟩ := hnote x p
    rw [run_bind]
    generalize (note x).run.run p = step at hresult htree ⊢
    obtain ⟨result, q⟩ := step
    cases hresult
    exact ⟨rfl, htree⟩
  rwa [bind_pure] at hpure

theorem Performs.mapM {γ : Type} {f : γ → Run β} {g : γ → WriteAction β} (h : ∀ x, Performs (f x) (g x))
    (xs : List γ) : Performs (xs.mapM f) (xs.mapM g) := by
  induction xs with
  | nil =>
    rw [List.mapM_nil, List.mapM_nil]
    exact performs_pure []
  | cons x xs ih =>
    rw [List.mapM_cons, List.mapM_cons]
    exact (h x).bind fun y => ih.bind fun ys => performs_pure (y :: ys)

end Run

/-- Writing the files of a run is writing the layout of its options. -/
theorem performs_writeFiles (w : World) (cwd : String) (o : Options) (c : Compilation) :
    Performs (writeFiles w cwd o c) ((o.layout o.outputPath o.header).generate w.render (templatesOf cwd o) c) := by
  refine (performs_onTree _).bind fun _ => .mapM (fun sheet => ?_) _
  exact (performs_onTree _).bind_quiet fun path p => ⟨rfl, (quiet_logEntry _).tree p⟩

/-! ### Whole runs -/

/-- The arguments call for a compilation with these options. -/
def Accepted (cwd : String) (args : List String) (o : Options) : Prop :=
  ∃ p rest q, parseArguments programOptions false none args = .ok p ∧ p.rest = "compile" :: rest ∧
    parseArguments compileOptions true none rest = .ok q ∧ Options.check (settings cwd q.options) = .ok o

/-- The sources that the options name load, and compile to `c`. -/
def Compiles (w : World) (o : Options) (c : Compilation) : Prop :=
  ∃ schemaText operationsText s,
    Source.load w o.basePath o.schemaSources = .ok schemaText ∧
    (if o.operations.isEmpty then .ok "" else Source.load w o.basePath o.operations) = .ok operationsText ∧
    buildSchema schemaText = .ok s ∧ compile s o.display operationsText = .ok c

/-- What becomes of the tree, and what of the run, if the compilation `c` is written. -/
def writing (w : World) (cwd : String) (o : Options) (c : Compilation) : Except WriteFault (List String) × FileTree :=
  ((o.layout o.outputPath o.header).generate w.render (templatesOf cwd o) c).run.run w.tree

/-- `t` is what writing leaves of the tree, up to the end or to a fault, after the options have been accepted and
everything has been compiled. -/
def Written (w : World) (cwd : String) (args : List String) (t : FileTree) : Prop :=
  ∃ o c, Accepted cwd args o ∧ Compiles w o c ∧ t = (writing w cwd o c).2

/-- Likewise, but a template of the user's has ended the writing with an error that is reported. -/
def WrittenUntil (w : World) (cwd : String) (args : List String) (message : String) (t : FileTree) : Prop :=
  ∃ o c, Accepted cwd args o ∧ Compiles w o c ∧ Raises w.render (templatesOf cwd o) message ∧
    writing w cwd o c = (.error (.template (.reported message)), t)

namespace Run

variable {α β : Type} {w : World} {cwd : String} {args : List String}

/-- Taken on the tree of `w`, the step changes nothing if it ends the run with a message, unless that comes from a
template, and nothing but by writing a compilation in any case. -/
def Safe (w : World) (cwd : String) (args : List String) (a : Run α) : Prop :=
  ∀ p, p.tree = w.tree →
    (∀ text code, (a.run.run p).1 = .error (.exit text code) → (a.run.run p).2.tree = w.tree ∨
      ∃ message, Stop.exit text code = .error message ∧ WrittenUntil w cwd args message (a.run.run p).2.tree) ∧
    ((a.run.run p).2.tree ≠ w.tree → Written w cwd args (a.run.run p).2.tree)

/-- A run that leaves the files alone is safe whatever comes of it. -/
theorem Quiet.safe {a : Run α} {P : α → Prop} (h : Quiet a P) : Safe w cwd args a := by
  intro p hp
  have htree := (h.tree p).trans hp
  exact ⟨fun _ _ _ => .inl htree, fun hne => absurd htree hne⟩

/-- After a quiet step the tree is still that of `w`. -/
theorem Quiet.bind_safe {a : Run α} {f : α → Run β} {P : α → Prop} (ha : Quiet a P)
    (hf : ∀ x, P x → Safe w cwd args (f x)) : Safe w cwd args (a >>= f) := by
  intro p hp
  have htree := (ha.tree p).trans hp
  rw [run_bind]
  split
  · next x q hstep =>
    rw [hstep] at htree
    exact hf x (ha.result p x (by rw [hstep])) q htree
  · next e q hstep =>
    rw [hstep] at htree
    exact ⟨fun _ _ _ => .inl htree, fun hne => absurd htree hne⟩

/-- Of the faults of writing only those of templates end a run with a message, and the line that is shown after it ends
none. -/
theorem safe_write {o : Options} {c : Compilation} (ho : Accepted cwd args o) (hc : Compiles w o c)
    (line : List String → String) : Safe w cwd args (writeFiles w cwd o c >>= fun x => echo (line x)) := by
  intro p hp
  obtain ⟨hresult, htree⟩ := performs_writeFiles w cwd o c p
  have hreports (message : String) (h : (writing w cwd o c).1 = .error (.template (.reported message))) :
      Raises w.render (templatesOf cwd o) message :=
    Layout.reports_generate _ c w.tree message h
  have hwritten : Written w cwd args (writing w cwd o c).2 := ⟨o, c, ho, hc, rfl⟩
  rw [hp] at hresult htree
  change _ = (writing w cwd o c).1.mapError stopOf at hresult
  change _ = (writing w cwd o c).2 at htree
  rw [run_bind]
  generalize (writeFiles w cwd o c).run.run p = step at hresult htree ⊢
  generalize hwriting : writing w cwd o c = done at hresult htree hreports hwritten
  obtain ⟨result, q⟩ := step
  obtain ⟨e | paths, t⟩ := done
  · cases hresult
    cases htree
    refine ⟨fun text code hexit => .inr ?_, fun _ => hwritten⟩
    rcases e with _ | message | _
    · cases hexit
    · cases hexit
      exact ⟨message, rfl, o, c, ho, hc, hreports message rfl, hwriting⟩
    · cases hexit
  · cases hresult
    cases htree
    exact ⟨nofun, fun _ => hwritten⟩

end Run

/-- With accepted options, all changes are those of the files being written. -/
theorem safe_compileSources {w : World} {cwd : String} {args : List String} {o : Options} (ho : Accepted cwd args o) :
    Safe w cwd args (compileSources w cwd o) := by
  unfold compileSources
  refine quiet_get.bind_safe fun p _ => ?_
  extract_lets verbose load
  have hload (u : Unit) : Safe w cwd args (load u) := by
    refine (quiet_echo _).bind_safe fun _ _ => ?_
    refine (quiet_loadSources w o.basePath o.schemaSources).bind_safe fun schemaText hschema => ?_
    extract_lets compiling
    have hcompiling (text : String)
        (htext : (if o.operations.isEmpty then .ok "" else Source.load w o.basePath o.operations) = .ok text) :
        Safe w cwd args (compiling text) := by
      refine (quiet_echo _).bind_safe fun _ _ => ?_
      refine (quiet_build schemaText).bind_safe fun s hs => ?_
      refine (quiet_compileText s o text).bind_safe fun c hc => ?_
      extract_lets generating
      have hgenerating (u : Unit) : Safe w cwd args (generating u) :=
        (quiet_echo _).bind_safe fun _ _ => safe_write ho ⟨schemaText, text, s, hschema, htext, hs, hc⟩ _
      split
      · refine (quiet_echo _).bind_safe fun _ _ => ?_
        refine (quiet_echo _).bind_safe fun _ _ => ?_
        refine (quiet_echo _).bind_safe fun _ _ => ?_
        refine (quiet_echo _).bind_safe fun _ _ => ?_
        exact (quiet_echo _).bind_safe fun u _ => hgenerating u
      · exact hgenerating ()
    split
    · next hnone => exact hcompiling "" (by rw [if_pos hnone])
    · next hsome =>
      refine (quiet_loadSources w o.basePath o.operations).bind_safe fun text htext => hcompiling text ?_
      rw [if_neg hsome, htext]
  split
  · refine (quiet_echo _).bind_safe fun _ _ => ?_
    exact (quiet_echo _).bind_safe fun u _ => hload u
  · exact hload ()

theorem safe_runCompile {w : World} {cwd : String} {args rest : List String}
    (hargs : ∃ p, parseArguments programOptions false none args = .ok p ∧ p.rest = "compile" :: rest) :
    Safe w cwd args (runCompile w cwd rest) := by
  obtain ⟨p, hp, hrest⟩ := hargs
  unfold runCompile
  refine (quiet_parsed .compile _).bind_safe fun q hq => ?_
  extract_lets verbose values checking
  have hchecking (u : Unit) : Safe w cwd args (checking u) := by
    refine (quiet_checkOptions w.tree cwd q.options).bind_safe fun _ _ => ?_
    refine (quiet_refuseExtra q.rest).bind_safe fun _ _ => ?_
    refine Quiet.bind_safe (quiet_modify fun _ => rfl) fun _ _ => ?_
    split
    · exact (quiet_throw _ fun _ => True).safe
    · next ho => exact safe_compileSources ⟨p, rest, q, hp, hrest, hq, ho⟩
  split
  · exact (quiet_throw _ fun _ => True).bind_safe fun u _ => hchecking u
  · exact hchecking ()

/-- No run of the program changes files but by writing a compilation of valid sources. -/
theorem safe_runProgram (w : World) (cwd : String) (args : List String) :
    Safe w cwd args (runProgram w cwd args) := by
  unfold runProgram
  extract_lets reading
  have hreading (u : Unit) : Safe w cwd args (reading u) := by
    refine (quiet_programArguments args).bind_safe fun rest hrest => ?_
    split
    · exact (quiet_usageError _ _ fun _ => True).safe
    · exact safe_runCompile hrest
    · extract_lets unknown
      have hunknown (u : Unit) : Safe w cwd args (unknown u) := (quiet_usageError _ _ fun _ => True).safe
      split
      · exact (quiet_programArguments _).discard.bind_safe fun u _ => hunknown u
      · exact hunknown ()
  split
  · exact (quiet_throw _ fun _ => True).bind_safe fun u _ => hreading u
  · exact hreading ()

/-- A run that ends with an error message has changed nothing, unless a template of the user's has brought about the
error while the files were written. Whatever changes a tree is the writing of the files, when everything has been
accepted, loaded and compiled. -/
theorem rejected_run_leaves_tree (w : World) (cwd : String) (args : List String) :
    ((run w cwd args).crash = none → (run w cwd args).exitCode ≠ 0 → (run w cwd args).tree = w.tree ∨
      ∃ message, (run w cwd args).exitCode = 1 ∧ WrittenUntil w cwd args message (run w cwd args).tree) ∧
    ((run w cwd args).tree ≠ w.tree → Written w cwd args (run w cwd args).tree) := by
  obtain ⟨hexit, hwritten⟩ := safe_runProgram w cwd args ⟨false, "", [], w.tree⟩ rfl
  unfold run
  generalize (runProgram w cwd args).run.run ⟨false, "", [], w.tree⟩ = ended at hexit hwritten ⊢
  obtain ⟨result, p⟩ := ended
  constructor
  · intro hcrash hcode
    rcases result with (⟨text, code⟩ | cause) | u
    · refine (hexit text code rfl).imp_right ?_
      rintro ⟨message, hstop, huntil⟩
      cases hstop
      exact ⟨message, rfl, huntil⟩
    · cases hcrash
    · exact absurd rfl hcode
  · intro hne
    rcases result with (⟨text, code⟩ | cause) | u
    · exact hwritten hne
    · exact hwritten hne
    · exact hwritten hne

/-- The second operation of a document is rejected after the first one has been compiled, and nothing is written.
Without the document the schema is. -/
theorem rejected_run_leaves_tree_at_second_operation :
    let schema := "type Query \x7b a: Int \x7d"
    let operations := "query Q \x7b a \x7d query R \x7b b \x7d"
    let w : World := .plain (.directory [("s.graphql", .file schema.toUTF8), ("q.graphql", .file operations.toUTF8),
      ("out", .directory [("schema.ts", .file "old".toUTF8)])]) fun _ => .failure "none"
    let rejected := run w "/" ["compile", "-s", "s.graphql", "-q", "q.graphql", "-o", "out"]
    let args := ["compile", "-s", "s.graphql", "-o", "out"]
    let accepted := run w "/" args
    rejected.crash = none ∧ rejected.exitCode = 1 ∧
    rejected.output = "Loading sources...\nCompiling...\nError: Unable to find path b\n" ∧
    rejected.tree = w.tree ∧ accepted.tree ≠ w.tree ∧ Written w "/" args accepted.tree := by
  intro schema operations w rejected args accepted
  have hrejected : (rejected.crash, rejected.exitCode, rejected.output) =
      (none, 1, "Loading sources...\nCompiling...\nError: Unable to find path b\n") := by
    decide +kernel
  simp only [Prod.mk.injEq] at hrejected
  obtain ⟨hcrash, hcode, houtput⟩ := hrejected
  have hleft : rejected.tree = w.tree := by
    refine ((rejected_run_leaves_tree w "/" _).1 hcrash (by rw [hcode]; decide)).resolve_right ?_
    rintro ⟨message, -, o, c, -, -, ⟨directory, t, x, -, -, hraised⟩, -⟩
    cases hraised
  have hread : (accepted.tree.read "/out/schema.ts").toOption ≠ (w.tree.read "/out/schema.ts").toOption := by
    decide +kernel
  have hchanged : accepted.tree ≠ w.tree := fun h => hread (by rw [h])
  exact ⟨hcrash, hcode, houtput, hleft, hchanged, (rejected_run_leaves_tree w "/" _).2 hchanged⟩

/-- A template of the user's that parses a document ends the run with the error of the parser, when the schema has been
written already. -/
theorem schema_written_before_failing_template :
    let tree : FileTree := .directory [("s.graphql", .file "type Query \x7b a: Int \x7d".toUTF8),
      ("q.graphql", .file "query Q \x7b a \x7d".toUTF8), ("t", .directory [("operations.ts.j2",
        .file "\x7b\x7b lipsum.__globals__.os.sys.modules.graphql.parse('x') \x7d\x7d".toUTF8)])]
    let render : TemplateRenderer := fun _ _ => match parseDocument "x" with
      | .ok _ => return ""
      | .error e => throw (.reported (e.report "x"))
    let w : World := { World.plain tree fun _ => .failure "none" with render }
    let rejected := run w "/"
      ["compile", "-s", "s.graphql", "-q", "q.graphql", "-o", "out", "--template-dir", "t"]
    rejected.crash = none ∧ rejected.exitCode = 1 ∧
    rejected.output = "Loading sources...\nCompiling...\nGenerating code...\n" ++
      "Error: Syntax Error: Unexpected Name 'x'.\n\nGraphQL request:1:1\n1 | x\n  | ^\n" ∧
    (w.tree.read "/out/schema.ts").toOption = none ∧ (rejected.tree.read "/out/schema.ts").toOption ≠ none ∧
    rejected.tree ≠ w.tree := by
  intro tree render w rejected
  have hrejected : (rejected.crash, rejected.exitCode, rejected.output,
      (rejected.tree.read "/out/schema.ts").toOption.isSome) = (none, 1,
      "Loading sources...\nCompiling...\nGenerating code...\n" ++
        "Error: Syntax Error: Unexpected Name 'x'.\n\nGraphQL request:1:1\n1 | x\n  | ^\n", true) := by
    decide +kernel
  simp only [Prod.mk.injEq] at hrejected
  obtain ⟨hcrash, hcode, houtput, hwritten⟩ := hrejected
  have hnone : (w.tree.read "/out/schema.ts").toOption = none := by decide +kernel
  have hsome : (rejected.tree.read "/out/schema.ts").toOption ≠ none := Option.ne_none_iff_isSome.mpr hwritten
  exact ⟨hcrash, hcode, houtput, hnone, hsome, fun h => hsome (by rw [h, hnone])⟩

end GraphDecl.CommandLine
