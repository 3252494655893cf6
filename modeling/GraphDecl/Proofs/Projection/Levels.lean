import Mathlib.Data.List.Forall2
import GraphDecl.Proofs.Projection.Direct

/-!
The levels of a result. A position is the way down to one of them: at each level the number of the field
below which it goes on. What stands at a position of the result comes from what is selected there.
-/

namespace GraphDecl

/-! ### Lists side by side -/

theorem getElem?_of_forall₂ {α β : Type} {R : α → β → Prop} {xs : List α} {ys : List β}
    (h : List.Forall₂ R xs ys) {i : Nat} {y : β} (hy : ys[i]? = some y) : ∃ x, xs[i]? = some x ∧ R x y := by
  induction h generalizing i with
  | nil => cases hy
  | cons hxy _ ih =>
    cases i with
    | zero =>
      cases hy
      exact ⟨_, rfl, hxy⟩
    | succ i => exact ih hy

theorem map_eq_map_of_forall₂ {α β γ : Type} {f : β → γ} {g : α → γ} {xs : List α} {ys : List β}
    (h : List.Forall₂ (fun x y => f y = g x) xs ys) : ys.map f = xs.map g := by
  induction h with
  | nil => rfl
  | cons hxy _ ih => rw [List.map_cons, List.map_cons, hxy, ih]

theorem forall_mem_of_forall₂ {α β : Type} {R : α → β → Prop} {P : β → Prop} {xs : List α} {ys : List β}
    (h : List.Forall₂ R xs ys) (hP : ∀ x y, R x y → P y) : ∀ y ∈ ys, P y := by
  induction h with
  | nil => simp
  | cons hxy _ ih => exact List.forall_mem_cons.mpr ⟨hP _ _ hxy, ih⟩

/-! ### Positions -/

def ResultField.below? : ResultField → Option (List ResultField)
  | .leaf .. => none
  | .composite _ _ _ fields => some fields

/-- The fields at a position below these ones. -/
def ResultField.levelAt? (fields : List ResultField) : List Nat → Option (List ResultField)
  | [] => some fields
  | i :: is => do levelAt? (← (← fields[i]?).below?) is

namespace Schema

/-- The type of the field that a selection looks up, and what is selected below it. -/
def enter? (field? : String → Option FieldType) : Selection → Option (FieldType × List Selection)
  | .field _ name _ _ (some selections) =>
    if name = typenameField then none else (field? name).map (·, selections)
  | _ => none

/-- The selections at a position below these ones, with the fields of the type that they are made on. -/
def selectedAt? (s : Schema) (field? : String → Option FieldType) (xs : List Selection) :
    List Nat → Option ((String → Option FieldType) × List Selection)
  | [] => some (field?, xs)
  | i :: is => do
    let (type, selections) ← enter? field? (← xs[i]?)
    selectedAt? s (s.outputField? type.name) selections is

variable {s : Schema} {field? : String → Option FieldType}

theorem forall₂_of_resultsOn {xs : List Selection} {fields : List ResultField}
    (h : s.resultsOn field? xs = some fields) :
    List.Forall₂ (fun x f => s.resultOn field? x = some f) xs fields := by
  induction xs generalizing fields with
  | nil =>
    cases h
    exact .nil
  | cons x xs ih =>
    obtain ⟨f, fs, hf, hfs, rfl⟩ := resultsOn_cons_eq_some_iff.mp h
    exact .cons hf (ih hfs)

/-- Results that go on below a field come from a selection that goes on below it. -/
theorem enter?_of_below? {x : Selection} {f : ResultField} (h : s.resultOn field? x = some f)
    {fields : List ResultField} (hbelow : f.below? = some fields) :
    ∃ type selections, enter? field? x = some (type, selections) ∧
      s.resultsOn (s.outputField? type.name) selections = some fields := by
  cases hasResult_of_resultOn h with
  | typename => cases hbelow
  | leaf => cases hbelow
  | composite hne htype hinside =>
    cases hbelow
    exact ⟨_, _, by rw [enter?, if_neg hne, htype, Option.map_some], hinside⟩

theorem selectedAt?_of_levelAt? (pos : List Nat) {xs : List Selection} {fields level : List ResultField}
    (h : s.resultsOn field? xs = some fields) (hlevel : ResultField.levelAt? fields pos = some level) :
    ∃ field?' ys, s.selectedAt? field? xs pos = some (field?', ys) ∧
      s.resultsOn field?' ys = some level := by
  induction pos generalizing field? xs fields with
  | nil =>
    cases hlevel
    exact ⟨field?, xs, rfl, h⟩
  | cons i is ih =>
    obtain ⟨f, hf, hlevel⟩ := Option.bind_eq_some_iff.mp hlevel
    obtain ⟨inside, hinside, hlevel⟩ := Option.bind_eq_some_iff.mp hlevel
    obtain ⟨x, hx, hresult⟩ := getElem?_of_forall₂ (forall₂_of_resultsOn h) hf
    obtain ⟨type, selections, henter, hbelow⟩ := enter?_of_below? hresult hinside
    obtain ⟨field?', ys, hys, hresults⟩ := ih hbelow hlevel
    exact ⟨field?', ys, by simp [selectedAt?, hx, henter, hys], hresults⟩

end Schema

end GraphDecl
