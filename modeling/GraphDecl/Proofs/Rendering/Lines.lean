import GraphDecl.Proofs.TypeScript.Pointers

/-!
Generated texts, line by line. The lines of a file can be read off its text, and off the lines those that are
indented up to a closing brace. Code is written without slashes, and without line feeds inside a line.
-/

namespace GraphDecl

open Rendering

/-! ### Cutting at marks -/

/-- What stands in front of the first mark, and what stands behind it. -/
theorem append_mark_inj {α : Type} {mark : α} {s s' t t' : List α} (hs : mark ∉ s) (hs' : mark ∉ s') :
    s ++ mark :: t = s' ++ mark :: t' ↔ s = s' ∧ t = t' := by
  induction s generalizing s' with
  | nil =>
    cases s' with
    | nil => simp
    | cons c r => simp [List.ne_of_not_mem_cons hs']
  | cons c r ih =>
    cases s' with
    | nil => simp [Ne.symm (List.ne_of_not_mem_cons hs)]
    | cons d r' =>
      simp [ih (List.not_mem_of_not_mem_cons hs) (List.not_mem_of_not_mem_cons hs'), and_assoc]

/-- The same for texts, where more than the mark may stand between. -/
theorem append_glue_inj {c : Char} {glue s s' t t' : String} (hglue : glue.toList.head? = some c)
    (hs : c ∉ s.toList) (hs' : c ∉ s'.toList) :
    s ++ (glue ++ t) = s' ++ (glue ++ t') ↔ s = s' ∧ t = t' := by
  obtain ⟨rest, hrest⟩ := List.head?_eq_some_iff.mp hglue
  rw [← String.toList_inj, ← String.toList_inj, ← String.toList_inj]
  simp [hrest, append_mark_inj hs hs']

/-! ### Lines of a text -/

namespace Rendering

@[simp] theorem unlines_nil : unlines [] = "" := rfl

theorem unlines_cons (l : String) (ls : List String) : unlines (l :: ls) = l ++ "\n" ++ unlines ls := by
  simp [unlines]

theorem unlines_append (ls ms : List String) : unlines (ls ++ ms) = unlines ls ++ unlines ms := by
  simp [unlines]

/-- The lines in front of a text can be told from it. -/
theorem pieces_unlines_append {ls : List String} (h : ∀ l ∈ ls, '\n' ∉ l.toList) (rest : String) :
    Text.pieces '\n' (unlines ls ++ rest) = ls ++ Text.pieces '\n' rest := by
  induction ls with
  | nil => rw [unlines_nil, String.empty_append, List.nil_append]
  | cons l ls ih =>
    rw [List.forall_mem_cons] at h
    have htext : ("\n" ++ (unlines ls ++ rest)).toList = '\n' :: (unlines ls ++ rest).toList := by simp
    rw [unlines_cons, String.append_assoc, String.append_assoc, Text.pieces_append l htext,
      Text.pieces_eq_singleton h.1, ih h.2, List.singleton_append, List.cons_append]

/-! ### Indented lines -/

theorem indent_append (width : Nat) (ls ms : List String) :
    indent width (ls ++ ms) = indent width ls ++ indent width ms :=
  List.map_append

theorem indent_zero (ls : List String) : indent 0 ls = ls := by
  refine (List.map_congr_left fun l _ => ?_).trans (List.map_id ls)
  unfold indentLine
  split <;> simp

/-- Lines that are moved twice are moved by the sum. -/
theorem indent_indent (m n : Nat) (ls : List String) : indent m (indent n ls) = indent (m + n) ls := by
  rw [indent, indent, indent, List.map_map]
  refine List.map_congr_left fun l _ => ?_
  have hspaces : String.ofList (List.replicate (m + n) ' ') =
      String.ofList (List.replicate m ' ') ++ String.ofList (List.replicate n ' ') := by
    rw [List.replicate_add, String.ofList_append]
  by_cases hl : l = ""
  · simp [indentLine, hl]
  · simp [indentLine, hl, hspaces, String.append_assoc]

theorem indentLine_inj {width : Nat} {l m : String} : indentLine width l = indentLine width m ↔ l = m := by
  constructor
  · intro h
    unfold indentLine at h
    split at h
    · next hl =>
      split at h
      · exact h
      · next hm =>
        rw [String.isEmpty_iff] at hl hm
        have hnil := congrArg String.toList h
        simp [hl, hm] at hnil
    · next hl =>
      split at h
      · next hm =>
        rw [String.isEmpty_iff] at hl hm
        have hnil := congrArg String.toList h
        simp [hl, hm] at hnil
      · exact String.append_right_inj _ |>.mp h
  · exact congrArg _

/-- Lines can be told apart after they are moved. -/
theorem indent_inj {width : Nat} {ls ms : List String} : indent width ls = indent width ms ↔ ls = ms :=
  (List.map_injective_iff.mpr fun _ _ h => indentLine_inj.mp h).eq_iff

/-- An indented line does not start with a brace. -/
theorem brace_not_mem_indent {width : Nat} (hwidth : width ≠ 0) (ls : List String) :
    "\x7d" ∉ indent width ls := by
  intro hmem
  obtain ⟨l, -, hl⟩ := List.mem_map.mp hmem
  obtain ⟨n, rfl⟩ := Nat.exists_eq_succ_of_ne_zero hwidth
  have hhead := congrArg (·.toList.head?) hl
  unfold indentLine at hhead
  split at hhead
  · next hempty =>
    rw [String.isEmpty_iff.mp hempty] at hhead
    revert hhead
    decide
  · simp [List.replicate_succ] at hhead

/-- The lines of a block end where its brace is closed. -/
theorem indent_brace_inj {ls ms after after' : List String} :
    indent 2 ls ++ "\x7d" :: after = indent 2 ms ++ "\x7d" :: after' ↔ ls = ms ∧ after = after' := by
  rw [append_mark_inj (brace_not_mem_indent (by decide) _) (brace_not_mem_indent (by decide) _), indent_inj]

end Rendering

end GraphDecl
