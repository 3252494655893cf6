import GraphDecl.Files.Glob
import GraphDecl.Proofs.Files.Lookups

/-!
What patterns find. A path fits a pattern component by component, where `**` stands for any number of directories
that are not hidden; the paths that are found lead to what the fitting paths lead to.
-/

namespace GraphDecl

namespace Glob

open PathText

/-! ### What fits a pattern -/

/-- What a component of a pattern stands for in a path. A component without wildcards stands for itself. `**` stands
for the directory that it is looked for in, or for names one below the other that are not hidden. Another one stands
for the names that fit it, hidden ones only if it is hidden itself. -/
inductive StandsFor (c : String) : List String → Prop
  | literal (plain : hasWildcard c.toList = false) : StandsFor c [c]
  | directory (recursive : isRecursive c = true) : StandsFor c [""]
  | below {names : List String} (recursive : isRecursive c = true) (some : names ≠ [])
      (steps : ∀ name ∈ names, IsEntryName name) (visible : ∀ name ∈ names, isHidden name = false) : StandsFor c names
  | name {name : String} (wild : hasWildcard c.toList = true) (single : isRecursive c = false) (step : IsEntryName name)
      (visible : (isHidden c || !isHidden name) = true) (fits : fitsPattern c name = true) : StandsFor c [name]

/-- The components of a path fit those of a pattern. -/
inductive Fits : List String → List String → Prop
  | nil : Fits [] []
  | cons {c : String} {cs part way : List String} (stands : StandsFor c part) (rest : Fits cs way) :
      Fits (c :: cs) (part ++ way)

variable {t : FileTree} {here place : List String} {c : String} {cs ds part way : List String}

theorem StandsFor.ne_nil (h : StandsFor c part) : part ≠ [] := by
  cases h with
  | literal => exact List.cons_ne_nil _ _
  | directory => exact List.cons_ne_nil _ _
  | below _ some => exact some
  | name => exact List.cons_ne_nil _ _

theorem standsFor_of_plain (h : hasWildcard c.toList = false) : StandsFor c part ↔ part = [c] := by
  have hrecursive : isRecursive c = false := by
    rw [isRecursive, beq_eq_false_iff_ne]
    rintro rfl
    exact absurd h (by decide)
  constructor
  · intro hstands
    cases hstands with
    | literal => rfl
    | directory recursive => rw [hrecursive] at recursive; cases recursive
    | below recursive => rw [hrecursive] at recursive; cases recursive
    | name wild => rw [h] at wild; cases wild
  · rintro rfl
    exact .literal h

/-- A way fits a pattern in two parts if it falls into two that fit these. -/
theorem fits_append : Fits (cs ++ ds) way ↔ ∃ front back, way = front ++ back ∧ Fits cs front ∧ Fits ds back := by
  induction cs generalizing way with
  | nil =>
    constructor
    · exact fun h => ⟨[], way, rfl, .nil, h⟩
    · rintro ⟨_, back, rfl, ⟨⟩, h⟩
      exact h
  | cons c cs ih =>
    constructor
    · rintro (_ | @⟨_, _, part, rest, stands, h⟩)
      obtain ⟨front, back, rfl, hfront, hback⟩ := ih.mp h
      exact ⟨part ++ front, back, by rw [List.append_assoc], .cons stands hfront, hback⟩
    · rintro ⟨_, back, rfl, _ | @⟨_, _, part, front, stands, hfront⟩, hback⟩
      rw [List.append_assoc]
      exact .cons stands (ih.mpr ⟨front, back, rfl, hfront, hback⟩)

theorem fits_singleton : Fits [c] way ↔ StandsFor c way := by
  constructor
  · rintro (_ | @⟨_, _, part, _, stands, ⟨⟩⟩)
    rwa [List.append_nil]
  · intro h
    rw [← List.append_nil way]
    exact .cons h .nil

/-- A pattern without wildcards is fitted by itself alone. -/
theorem fits_of_plain (h : ∀ c ∈ cs, hasWildcard c.toList = false) : Fits cs way ↔ way = cs := by
  induction cs generalizing way with
  | nil =>
    constructor
    · rintro ⟨⟩
      rfl
    · rintro rfl
      exact .nil
  | cons c cs ih =>
    rw [List.forall_mem_cons] at h
    constructor
    · rintro (_ | ⟨stands, rest⟩)
      rw [(standsFor_of_plain h.1).mp stands, (ih h.2).mp rest]
      rfl
    · rintro rfl
      exact .cons (.literal h.1) ((ih h.2).mpr rfl)

theorem slash_not_mem_of_standsFor (hc : '/' ∉ c.toList) (h : StandsFor c part) : ∀ name ∈ part, '/' ∉ name.toList := by
  cases h with
  | literal => simpa using hc
  | directory => simp
  | below _ _ steps => exact fun name hname => (steps name hname).slash
  | name _ _ step => simpa using step.slash

theorem Fits.ne_nil (h : Fits cs way) (hne : cs ≠ []) : way ≠ [] := by
  cases h with
  | nil => exact absurd rfl hne
  | cons stands => exact List.append_ne_nil_of_left_ne_nil stands.ne_nil _

theorem slash_not_mem_of_fits (hcs : ∀ c ∈ cs, '/' ∉ c.toList) (h : Fits cs way) : ∀ name ∈ way, '/' ∉ name.toList := by
  induction h with
  | nil => exact fun _ hname => nomatch hname
  | cons stands _ ih =>
    rw [List.forall_mem_cons] at hcs
    rw [List.forall_mem_append]
    exact ⟨slash_not_mem_of_standsFor hcs.1 stands, ih hcs.2⟩

/-- A way from `here` to `place` fits the components of a pattern. -/
def Leads (t : FileTree) (cs here place : List String) : Prop :=
  ∃ way, Fits cs way ∧ t.follow here way = .ok place

/-- A pattern in two parts leads on from where its first part leads. -/
theorem leads_append : Leads t (cs ++ ds) here place ↔ ∃ mid, Leads t cs here mid ∧ Leads t ds mid place := by
  constructor
  · rintro ⟨way, hway, hfollow⟩
    obtain ⟨front, back, rfl, hfront, hback⟩ := fits_append.mp hway
    rw [FileTree.follow_append, bind_eq_ok_iff] at hfollow
    obtain ⟨mid, hmid, hplace⟩ := hfollow
    exact ⟨mid, ⟨front, hfront, hmid⟩, back, hback, hplace⟩
  · rintro ⟨mid, ⟨front, hfront, hmid⟩, back, hback, hplace⟩
    refine ⟨front ++ back, fits_append.mpr ⟨front, back, rfl, hfront, hback⟩, ?_⟩
    rw [FileTree.follow_append, bind_eq_ok_iff]
    exact ⟨mid, hmid, hplace⟩

theorem leads_singleton : Leads t [c] here place ↔ ∃ part, StandsFor c part ∧ t.follow here part = .ok place := by
  simp only [Leads, fits_singleton]

/-- A pattern without wildcards leads where its components lead. -/
theorem leads_of_plain (h : ∀ c ∈ cs, hasWildcard c.toList = false) :
    Leads t cs here place ↔ t.follow here cs = .ok place := by
  simp only [Leads, fits_of_plain h, exists_eq_left]

theorem fits_replicate {k : Nat} :
    Fits (List.replicate k "" ++ cs) way ↔ ∃ back, way = List.replicate k "" ++ back ∧ Fits cs back := by
  rw [fits_append]
  constructor
  · rintro ⟨front, back, rfl, hfront, hback⟩
    rw [fits_of_plain (by simp [hasWildcard])] at hfront
    exact ⟨back, by rw [hfront], hback⟩
  · rintro ⟨back, rfl, hback⟩
    exact ⟨_, back, rfl, (fits_of_plain (by simp [hasWildcard])).mpr rfl, hback⟩

theorem leads_replicate {k : Nat} : Leads t (List.replicate k "" ++ [c]) here place ↔ Leads t [c] here place := by
  constructor
  · rintro ⟨way, hway, hfollow⟩
    obtain ⟨back, rfl, hback⟩ := fits_replicate.mp hway
    rw [FileTree.follow_append_idle (fits_singleton.mp hback).ne_nil] at hfollow
    exact ⟨back, hback, hfollow⟩
  · rintro ⟨way, hway, hfollow⟩
    refine ⟨_, fits_replicate.mpr ⟨way, rfl, hway⟩, ?_⟩
    rw [FileTree.follow_append_idle (fits_singleton.mp hway).ne_nil, hfollow]

theorem eq_nil_of_leads_slashes {k : Nat} (h : Leads t (components (String.ofList (List.replicate k '/'))) [] here) :
    here = [] := by
  rw [components_slashes, leads_replicate, leads_singleton] at h
  obtain ⟨part, hstands, hfollow⟩ := h
  rw [(standsFor_of_plain (by decide)).mp hstands] at hfollow
  exact FileTree.eq_walk_of_follow hfollow

end Glob

end GraphDecl
