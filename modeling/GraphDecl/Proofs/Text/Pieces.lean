import Mathlib.Data.List.Basic
import GraphDecl.Text.Cutting

/-!
Cutting texts at a mark and joining them again. The pieces of a text are the only texts without the mark that
are joined to it. And words of a text replaced, so that what is put in is not looked at again.
-/

namespace GraphDecl.Text

variable {mark : Char} {s t : List Char}

/-! ### Cutting -/

theorem splitAt_ne_nil (mark : Char) (s : List Char) : splitAt mark s ≠ [] := by
  cases s with
  | nil => simp [splitAt]
  | cons c r =>
    unfold splitAt
    split
    · simp
    · split <;> simp

theorem splitAt_mark (mark : Char) (s : List Char) : splitAt mark (mark :: s) = [] :: splitAt mark s :=
  if_pos rfl

theorem splitAt_cons {c : Char} (hc : c ≠ mark) {piece : List Char} {pieces : List (List Char)}
    (h : splitAt mark s = piece :: pieces) : splitAt mark (c :: s) = (c :: piece) :: pieces := by
  rw [splitAt, if_neg hc, h]

theorem splitAt_eq_singleton (h : mark ∉ s) : splitAt mark s = [s] := by
  induction s with
  | nil => rfl
  | cons c r ih =>
    simp only [List.mem_cons, not_or] at h
    rw [splitAt, if_neg (Ne.symm h.1), ih h.2]

/-- A mark ends a piece, whatever stands in front of it and behind it. -/
theorem splitAt_append (mark : Char) (s t : List Char) :
    splitAt mark (s ++ mark :: t) = splitAt mark s ++ splitAt mark t := by
  induction s with
  | nil => simp [splitAt]
  | cons c r ih =>
    by_cases hc : c = mark
    · simp [splitAt, hc, ih]
    · rw [List.cons_append, splitAt, if_neg hc, ih, splitAt, if_neg hc]
      cases hr : splitAt mark r with
      | nil => exact absurd hr (splitAt_ne_nil mark r)
      | cons l ls => rfl

theorem not_mem_of_mem_splitAt {piece : List Char} (h : piece ∈ splitAt mark s) : mark ∉ piece := by
  induction s generalizing piece with
  | nil =>
    rw [List.mem_singleton.mp h]
    exact List.not_mem_nil
  | cons c r ih =>
    rw [splitAt] at h
    split at h
    · rcases List.mem_cons.mp h with rfl | h
      · exact List.not_mem_nil
      · exact ih h
    · next hc =>
      split at h
      · next hr => exact absurd hr (splitAt_ne_nil mark r)
      · next l ls hr =>
        rw [hr] at ih
        rcases List.mem_cons.mp h with rfl | h
        · rw [List.mem_cons, not_or]
          exact ⟨Ne.symm hc, ih List.mem_cons_self⟩
        · exact ih (List.mem_cons_of_mem _ h)

theorem flatMap_splitAt (mark : Char) (s : List Char) :
    (splitAt mark s).flatMap (· ++ [mark]) = s ++ [mark] := by
  induction s with
  | nil => rfl
  | cons c r ih =>
    unfold splitAt
    split
    · next hc => simp [hc, ih]
    · split
      · next hnil => exact absurd hnil (splitAt_ne_nil mark r)
      · next l ls hr =>
        rw [hr, List.flatMap_cons] at ih
        simp [← ih]

theorem mem_of_mem_splitAt {piece : List Char} (h : piece ∈ splitAt mark s) {c : Char} (hc : c ∈ piece) : c ∈ s := by
  have hmem : c ∈ s ++ [mark] := by
    rw [← flatMap_splitAt]
    exact List.mem_flatMap.mpr ⟨piece, h, List.mem_append_left _ hc⟩
  refine (List.mem_append.mp hmem).resolve_right fun hmark => ?_
  rw [List.mem_singleton.mp hmark] at hc
  exact not_mem_of_mem_splitAt h hc

theorem splitAt_inj : splitAt mark s = splitAt mark t ↔ s = t := by
  constructor
  · intro h
    have hflat := congrArg (·.flatMap (· ++ [mark])) h
    simp only [flatMap_splitAt] at hflat
    exact List.append_cancel_right hflat
  · exact congrArg _

/-! ### Pieces of texts -/

theorem pieces_ne_nil (mark : Char) (s : String) : pieces mark s ≠ [] := by
  simp [pieces, splitAt_ne_nil]

theorem pieces_eq_singleton {s : String} (h : mark ∉ s.toList) : pieces mark s = [s] := by
  rw [pieces, splitAt_eq_singleton h, List.map_singleton, String.ofList_toList]

theorem pieces_append (s : String) {t u : String} (hu : u.toList = mark :: t.toList) :
    pieces mark (s ++ u) = pieces mark s ++ pieces mark t := by
  rw [pieces, String.toList_append, hu, splitAt_append, List.map_append, pieces, pieces]

theorem not_mem_of_mem_pieces {s piece : String} (h : piece ∈ pieces mark s) : mark ∉ piece.toList := by
  obtain ⟨cs, hcs, rfl⟩ := List.mem_map.mp h
  rw [String.toList_ofList]
  exact not_mem_of_mem_splitAt hcs

theorem pieces_inj {s t : String} : pieces mark s = pieces mark t ↔ s = t := by
  rw [pieces, pieces, (List.map_injective_iff.mpr fun _ _ h => String.ofList_injective h).eq_iff, splitAt_inj,
    String.toList_inj]

/-! ### Joining -/

theorem joinWith_cons_cons (glue t u : String) (texts : List String) :
    joinWith glue (t :: u :: texts) = t ++ glue ++ joinWith glue (u :: texts) := by
  have hfold (front t : String) : texts.foldl (fun joined t => joined ++ glue ++ t) (front ++ t) =
      front ++ texts.foldl (fun joined t => joined ++ glue ++ t) t := by
    induction texts generalizing t with
    | nil => rfl
    | cons u texts ih =>
      rw [List.foldl_cons, List.foldl_cons, ← ih, String.append_assoc, String.append_assoc,
        String.append_assoc]
  exact hfold (t ++ glue) u

theorem forall_mem_joinWith {P : Char → Prop} {glue : String} (hglue : ∀ c ∈ glue.toList, P c)
    {texts : List String} (h : ∀ t ∈ texts, ∀ c ∈ t.toList, P c) :
    ∀ c ∈ (joinWith glue texts).toList, P c := by
  induction texts with
  | nil => exact fun c hc => nomatch hc
  | cons t texts ih =>
    rw [List.forall_mem_cons] at h
    cases texts with
    | nil => exact h.1
    | cons u texts =>
      rw [joinWith_cons_cons, String.toList_append, String.toList_append, List.forall_mem_append,
        List.forall_mem_append]
      exact ⟨⟨h.1, hglue⟩, ih h.2⟩

/-- Each of the texts that are joined stands in the whole. -/
theorem exists_joinWith_eq (glue : String) {texts : List String} {t : String} (h : t ∈ texts) :
    ∃ front back, joinWith glue texts = front ++ t ++ back := by
  induction texts with
  | nil => cases h
  | cons u texts ih =>
    cases texts with
    | nil =>
      rw [List.mem_singleton.mp h]
      exact ⟨"", "", by simp [joinWith]⟩
    | cons v texts =>
      rw [joinWith_cons_cons]
      rcases List.mem_cons.mp h with rfl | h
      · exact ⟨"", glue ++ joinWith glue (v :: texts), by simp [String.append_assoc]⟩
      · obtain ⟨front, back, hjoined⟩ := ih h
        exact ⟨u ++ glue ++ front, back, by simp [hjoined, String.append_assoc]⟩

/-- Texts that do not hold the mark are what their joined text is cut into. -/
theorem pieces_joinWith {glue : String} (hglue : glue.toList = [mark]) {texts : List String} (hne : texts ≠ [])
    (h : ∀ t ∈ texts, mark ∉ t.toList) : pieces mark (joinWith glue texts) = texts := by
  induction texts with
  | nil => exact absurd rfl hne
  | cons t texts ih =>
    rw [List.forall_mem_cons] at h
    cases texts with
    | nil => exact pieces_eq_singleton h.1
    | cons u texts =>
      have hrest : (glue ++ joinWith glue (u :: texts)).toList =
          mark :: (joinWith glue (u :: texts)).toList := by
        rw [String.toList_append, hglue, List.singleton_append]
      rw [joinWith_cons_cons, String.append_assoc, pieces_append t hrest, pieces_eq_singleton h.1,
        ih (List.cons_ne_nil u texts) h.2, List.singleton_append]

theorem pieces_eq_iff (mark : Char) {glue : String} (hglue : glue.toList = [mark]) {s : String}
    {texts : List String} (hne : texts ≠ []) :
    pieces mark s = texts ↔ (∀ t ∈ texts, mark ∉ t.toList) ∧ joinWith glue texts = s := by
  constructor
  · rintro rfl
    have hcut : pieces mark (joinWith glue (pieces mark s)) = pieces mark s :=
      pieces_joinWith hglue hne fun t => not_mem_of_mem_pieces
    exact ⟨fun t => not_mem_of_mem_pieces, pieces_inj.mp hcut⟩
  · rintro ⟨hmark, rfl⟩
    exact pieces_joinWith hglue hne hmark

/-! ### Replacing -/

/-- Puts `new` in the place of every `word`, from left to right. The first `used` characters belong to a word that
has been replaced. -/
def replaceFrom (word new : List Char) : (used : Nat) → List Char → List Char
  | _, [] => []
  | used + 1, _ :: r => replaceFrom word new used r
  | 0, c :: r =>
    if word.isPrefixOf (c :: r) then new ++ replaceFrom word new (word.length - 1) r
    else c :: replaceFrom word new 0 r

def replaceAll (word new s : List Char) : List Char := replaceFrom word new 0 s

theorem replaceAll_singleton (c : Char) (new s : List Char) :
    replaceAll [c] new s = s.flatMap fun d => if d = c then new else [d] := by
  induction s with
  | nil => rfl
  | cons d s ih =>
    rw [replaceAll] at ih ⊢
    by_cases hd : d = c
    · simp [replaceFrom, hd, ih]
    · simp [replaceFrom, hd, Ne.symm hd, List.isPrefixOf, ih]

end GraphDecl.Text
