import Mathlib.Data.List.DropRight
import GraphDecl.Text.Cutting

/-!
Trimmed texts and lines of texts, described without the way they are found: what has to stand between the blanks at
the ends of a text, and which lines and line breaks a text is made of. A text has one such core and one such row of
lines, and these are what trimming and cutting give.
-/

namespace GraphDecl.Text

/-! ### Blanks at the ends -/

/-- A text is empty or ends in a character that is no blank. -/
def NoTrailingBlank (s : List Char) : Prop := ∀ c, s.getLast? = some c → isBlank c = false

theorem noTrailingBlank_of_getLast? {s : List Char} {c : Char} (h : s.getLast? = some c) (hc : isBlank c = false) :
    NoTrailingBlank s := by
  intro d hd
  rw [← Option.some.inj (h.symm.trans hd), hc]

/-- `t` is what is left of `s` without the blanks at its ends. -/
structure TrimsTo (s t : List Char) : Prop where
  around : ∃ before after, s = before ++ (t ++ after) ∧ (∀ c ∈ before, isBlank c = true) ∧
    ∀ c ∈ after, isBlank c = true
  first : ∀ c, t.head? = some c → isBlank c = false
  last : NoTrailingBlank t

theorem trimRight_isPrefix (s : List Char) : trimRight s <+: s := List.rdropWhile_prefix isBlank s

theorem exists_blanks_trimRight (s : List Char) :
    ∃ after, s = trimRight s ++ after ∧ ∀ c ∈ after, isBlank c = true :=
  ⟨s.rtakeWhile isBlank, (List.rdropWhile_append_rtakeWhile).symm, fun _ hc => List.mem_rtakeWhile_imp hc⟩

theorem noTrailingBlank_trimRight (s : List Char) : NoTrailingBlank (trimRight s) := by
  intro c hc
  have hhead := List.head?_dropWhile_not isBlank s.reverse
  rw [trimRight, List.getLast?_reverse] at hc
  rw [hc] at hhead
  simpa using hhead

theorem trimRight_append {s t : List Char} (ht : ∀ c ∈ t, isBlank c = true) : trimRight (s ++ t) = trimRight s := by
  have hblank : ∀ c ∈ t.reverse, isBlank c = true := fun c hc => ht c (List.mem_reverse.mp hc)
  rw [trimRight, List.reverse_append, List.dropWhile_append_of_pos hblank, trimRight]

theorem trimRight_eq_self {s : List Char} (h : NoTrailingBlank s) : trimRight s = s := by
  apply List.rdropWhile_eq_self_iff.mpr
  intro hne
  simpa using h _ (List.getLast?_eq_some_getLast hne)

theorem NoTrailingBlank.append {s t : List Char} (hs : NoTrailingBlank s) (ht : NoTrailingBlank t) :
    NoTrailingBlank (s ++ t) := by
  intro c hc
  cases hlast : t.getLast? with
  | none => exact hs c (by simpa [List.getLast?_append, hlast] using hc)
  | some d => exact ht c (by simpa [List.getLast?_append, hlast] using hc)

/-- A text that ends in no blank stays whole in front of others. -/
theorem trimRight_append_right {s : List Char} (hs : NoTrailingBlank s) (t : List Char) :
    trimRight (s ++ t) = s ++ trimRight t := by
  obtain ⟨after, hafter, hblanks⟩ := exists_blanks_trimRight t
  calc trimRight (s ++ t) = trimRight (s ++ trimRight t ++ after) := by rw [List.append_assoc, ← hafter]
    _ = trimRight (s ++ trimRight t) := trimRight_append hblanks
    _ = s ++ trimRight t := trimRight_eq_self (hs.append (noTrailingBlank_trimRight t))

theorem trimsTo_trim (s : List Char) : TrimsTo s (trim s) := by
  obtain ⟨after, hafter, hblanks⟩ := exists_blanks_trimRight (s.dropWhile isBlank)
  constructor
  · refine ⟨s.takeWhile isBlank, after, ?_, fun c hc => List.mem_takeWhile_imp hc, hblanks⟩
    rw [trim, ← hafter, List.takeWhile_append_dropWhile]
  · intro c hc
    have hhead := List.head?_dropWhile_not isBlank s
    -- what is left at the end of the cut starts as the text behind the first blanks
    rw [hafter, List.head?_append, ← trim, hc] at hhead
    simpa using hhead
  · exact noTrailingBlank_trimRight _

theorem TrimsTo.eq_trim {s t : List Char} (h : TrimsTo s t) : t = trim s := by
  obtain ⟨before, after, rfl, hbefore, hafter⟩ := h.around
  rw [trim, List.dropWhile_append_of_pos hbefore]
  cases t with
  | nil =>
    have hnone : after.dropWhile isBlank = [] := List.dropWhile_eq_nil_iff.mpr hafter
    rw [List.nil_append, hnone]
    rfl
  | cons c r =>
    rw [List.cons_append, List.dropWhile_cons_of_neg (by simp [h.first c rfl]), ← List.cons_append,
      trimRight_append hafter, trimRight_eq_self h.last]

/-- Trimming is described by what it takes away and what it leaves. -/
theorem trimsTo_iff {s t : List Char} : TrimsTo s t ↔ t = trim s := by
  constructor
  · exact TrimsTo.eq_trim
  · rintro rfl
    exact trimsTo_trim s

/-! ### Lines -/

/-- A text without line breaks. -/
def IsLine (l : List Char) : Prop := ∀ c ∈ l, isLineBreak c = false

/-- A text is made of lines. Each ends at a line break, CR LF being one of them, or at the end of the text; behind the
last line break there is a line only if there is something. -/
inductive InLines : List Char → List (List Char) → Prop
  | nil : InLines [] []
  | last {l : List Char} (hl : IsLine l) (hne : l ≠ []) : InLines l [l]
  | returnFeed {l rest : List Char} {ls : List (List Char)} (hl : IsLine l) (h : InLines rest ls) :
    InLines (l ++ '\r' :: '\n' :: rest) (l :: ls)
  | mark {l rest : List Char} {c : Char} {ls : List (List Char)} (hl : IsLine l) (hc : isLineBreak c = true)
    (hpair : ¬ (c = '\r' ∧ rest.head? = some '\n')) (h : InLines rest ls) : InLines (l ++ c :: rest) (l :: ls)

theorem isLine_nil : IsLine [] := by
  simp [IsLine]

theorem isLine_cons {c : Char} {l : List Char} : IsLine (c :: l) ↔ isLineBreak c = false ∧ IsLine l := by
  simp [IsLine]

theorem IsLine.append {l m : List Char} (hl : IsLine l) (hm : IsLine m) : IsLine (l ++ m) := by
  intro c hc
  rcases List.mem_append.mp hc with hc | hc
  · exact hl c hc
  · exact hm c hc

theorem IsLine.of_isPrefix {l m : List Char} (hm : IsLine m) (h : l <+: m) : IsLine l :=
  fun c hc => hm c (h.subset hc)

/-- A character that breaks no line belongs to the first line behind it. -/
theorem InLines.cons {c : Char} {r l : List Char} {ls : List (List Char)} (hc : isLineBreak c = false)
    (h : InLines r (l :: ls)) : InLines (c :: r) ((c :: l) :: ls) := by
  cases h with
  | last hl hne => exact .last (isLine_cons.mpr ⟨hc, hl⟩) (List.cons_ne_nil _ _)
  | returnFeed hl h => exact .returnFeed (isLine_cons.mpr ⟨hc, hl⟩) h
  | mark hl hbreak hpair h => exact .mark (isLine_cons.mpr ⟨hc, hl⟩) hbreak hpair h

/-- The lines of a text make it up with the breaks between them. -/
theorem inLines_lines (s : List Char) : InLines s (lines s) := by
  fun_induction lines s with
  | case1 => exact .nil
  | case2 r ih => exact .returnFeed isLine_nil ih
  | case3 c r hpair hbreak ih =>
    refine .mark isLine_nil hbreak ?_ ih
    rintro ⟨rfl, hhead⟩
    obtain ⟨r', rfl⟩ := List.head?_eq_some_iff.mp hhead
    exact hpair r' rfl rfl
  | case4 c r hpair hbreak hlines ih =>
    rw [hlines] at ih
    cases ih
    exact .last (isLine_cons.mpr ⟨by simpa using hbreak, isLine_nil⟩) (List.cons_ne_nil _ _)
  | case5 c r hpair hbreak l ls hlines ih =>
    rw [hlines] at ih
    exact ih.cons (by simpa using hbreak)

theorem lines_cons {c : Char} (hc : isLineBreak c = false) (r : List Char) :
    lines (c :: r) = match lines r with
      | [] => [[c]]
      | l :: ls => (c :: l) :: ls := by
  rw [lines.eq_def]
  split
  · next h => cases h
  · next r' h =>
    obtain ⟨rfl, -⟩ := List.cons.inj h
    cases hc
  · next c' r' hpair h =>
    obtain ⟨rfl, rfl⟩ := List.cons.inj h
    cases lines r <;> simp [hc]

/-- A break behind a line ends it. -/
theorem lines_append {l t : List Char} {ls : List (List Char)} (hl : IsLine l) (ht : lines t = [] :: ls) :
    lines (l ++ t) = l :: ls := by
  induction l with
  | nil => exact ht
  | cons c l ih =>
    rw [isLine_cons] at hl
    rw [List.cons_append, lines_cons hl.1, ih hl.2]

theorem lines_of_isLine {l : List Char} (hl : IsLine l) (hne : l ≠ []) : lines l = [l] := by
  induction l with
  | nil => exact absurd rfl hne
  | cons c l ih =>
    rw [isLine_cons] at hl
    rw [lines_cons hl.1]
    cases l with
    | nil => rfl
    | cons d l => rw [ih hl.2 (List.cons_ne_nil _ _)]

theorem lines_mark {c : Char} {rest : List Char} (hc : isLineBreak c = true)
    (hpair : ¬ (c = '\r' ∧ rest.head? = some '\n')) : lines (c :: rest) = [] :: lines rest := by
  rw [lines.eq_def]
  split
  · next h => cases h
  · next r h =>
    obtain ⟨rfl, rfl⟩ := List.cons.inj h
    exact absurd ⟨rfl, rfl⟩ hpair
  · next c' r hpair' h =>
    obtain ⟨rfl, rfl⟩ := List.cons.inj h
    rw [if_pos hc]

theorem lines_return_feed (rest : List Char) : lines ('\r' :: '\n' :: rest) = [] :: lines rest := rfl

/-- A text falls into lines in one way only. -/
theorem InLines.lines_eq {s : List Char} {ls : List (List Char)} (h : InLines s ls) : lines s = ls := by
  induction h with
  | nil => rfl
  | last hl hne => exact lines_of_isLine hl hne
  | returnFeed hl h ih => exact lines_append hl (by rw [lines_return_feed, ih])
  | mark hl hc hpair h ih => exact lines_append hl (by rw [lines_mark hc hpair, ih])

/-- A text has one row of lines, and cutting it gives them. -/
theorem inLines_iff {s : List Char} {ls : List (List Char)} : InLines s ls ↔ ls = lines s := by
  constructor
  · intro h
    exact h.lines_eq.symm
  · rintro rfl
    exact inLines_lines s

theorem InLines.isLine {s : List Char} {ls : List (List Char)} (h : InLines s ls) : ∀ l ∈ ls, IsLine l := by
  induction h with
  | nil => simp
  | last hl hne => simpa using hl
  | returnFeed hl h ih => exact List.forall_mem_cons.mpr ⟨hl, ih⟩
  | mark hl hc hpair h ih => exact List.forall_mem_cons.mpr ⟨hl, ih⟩

/-- Lines that are all ended by a line feed. -/
theorem inLines_ended {ls : List (List Char)} (h : ∀ l ∈ ls, IsLine l) :
    InLines (ls.flatMap (· ++ ['\n'])) ls := by
  induction ls with
  | nil => exact .nil
  | cons l ls ih =>
    rw [List.forall_mem_cons] at h
    rw [List.flatMap_cons, List.append_assoc]
    exact .mark h.1 (by decide) (by simp) (ih h.2)

end GraphDecl.Text
