import GraphDecl.Output
import GraphDecl.Proofs.Outcome

/-!
Files from templates. Templates of a user's that give what the built-in ones give make no difference, and of all that
can go wrong with the files only such templates bring about an error that is reported.
-/

namespace GraphDecl

variable {render : TemplateRenderer} {templates : Option String}

/-! ### Templates that give the built-in texts -/

/-- The built-in template is filled in unless a directory of templates gives something else. -/
theorem Sheet.render_eq_text {x : Sheet} (h : ∀ directory, templates = some directory → render directory x = pure x.text) :
    x.render render templates = pure x.text := by
  cases templates with
  | none => rfl
  | some directory =>
    simp only [Sheet.render, h directory rfl, ite_self]
    rfl

theorem Layout.files_eq_map (l : Layout) (c : Compilation) :
    l.files c = (l.sheets c).map fun sheet => (sheet.1, sheet.2.text) := by
  unfold files sheets
  split <;> rfl

/-- Without templates of a user's, or with such that give the built-in texts, the files are written as they are from the
built-in templates. -/
theorem Layout.generate_eq_write
    (h : ∀ directory x, templates = some directory → render directory x = pure x.text) (l : Layout) (c : Compilation) :
    l.generate render templates c = (l.write c).adapt .file := by
  rw [generate, write, adapt_bind, adapt_mapM, files_eq_map, List.mapM_map]
  have hsheet : l.writeSheet render templates = fun sheet => (l.writeFile (sheet.1, sheet.2.text)).adapt .file := by
    funext sheet
    rw [writeSheet, Sheet.render_eq_text fun directory => h directory sheet.2, adapt_pure, pure_bind]
  simp only [hsheet, Function.comp_def]

/-! ### Errors that are reported -/

/-- A template of the user's that is used ends with this error. -/
def Raises (render : TemplateRenderer) (templates : Option String) (message : String) : Prop :=
  ∃ directory t x, templates = some directory ∧ overrides t directory x = true ∧
    ((render directory x).run.run t).1 = .error (.reported message)

namespace WriteAction

variable {α β γ : Type} {a : WriteAction α} {P : String → Prop}

/-- The errors that the action may have and that are reported. -/
def Reports (a : WriteAction α) (P : String → Prop) : Prop :=
  ∀ t message, (a.run.run t).1 = .error (.template (.reported message)) → P message

theorem reports_pure (x : α) : Reports (pure x) P := nofun

theorem reports_file (a : FileAction α) : Reports (a.adapt .file) P := by
  intro t message h
  rw [run_adapt, mapError_eq_error_iff] at h
  obtain ⟨e, -, he⟩ := h
  cases he

/-- Steps one after the other report no more than either of them. -/
theorem Reports.bind (ha : Reports a P) {f : α → WriteAction β} (hf : ∀ x, Reports (f x) P) : Reports (a >>= f) P := by
  intro t message h
  rw [run_bind] at h
  split at h
  · next x u hstep => exact hf x u message h
  · next e u hstep =>
    cases h
    exact ha t message (by rw [hstep])

theorem Reports.mapM {f : γ → WriteAction β} (h : ∀ x, Reports (f x) P) (xs : List γ) : Reports (xs.mapM f) P := by
  induction xs with
  | nil => exact reports_pure []
  | cons x xs ih =>
    rw [List.mapM_cons]
    exact (h x).bind fun _ => ih.bind fun _ => reports_pure _

end WriteAction

open WriteAction

/-- What is reported of a sheet is what its template raises. -/
theorem Sheet.reports_render (x : Sheet) : Reports ((x.render render templates).adapt .template) (Raises render templates) := by
  intro t message h
  rw [run_adapt, mapError_eq_error_iff] at h
  obtain ⟨_, h, he⟩ := h
  cases he
  cases templates with
  | none => cases h
  | some directory =>
    change ((if overrides t directory x = true then render directory x else pure x.text).run.run t).1 = _ at h
    split at h
    · next hover => exact ⟨directory, t, x, rfl, hover, h⟩
    · cases h

/-- An error that is reported comes from a template of the user's. -/
theorem Layout.reports_generate (l : Layout) (c : Compilation) :
    Reports (l.generate render templates c) (Raises render templates) :=
  (reports_file _).bind fun _ => .mapM (fun sheet => sheet.2.reports_render.bind fun _ => reports_file _) _

end GraphDecl
