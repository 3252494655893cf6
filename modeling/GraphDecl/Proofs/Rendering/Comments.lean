import GraphDecl.Proofs.Rendering.Code
import GraphDecl.Proofs.Text.LineBreaks

/-!
Descriptions and code. A description shows in the file for a schema as a comment block and in no other way: take
the blocks out of the text, and what remains is the text of the same declarations without descriptions.
-/

namespace GraphDecl

namespace Rendering

/-! ### Taking comments out of a text -/

/-- What follows inside of a comment: all behind the end of the line on which the comment is closed. -/
def afterComment : List Char → List Char
  | [] => []
  | '*' :: '/' :: r => (r.dropWhile (· != '\n')).drop 1
  | _ :: r => afterComment r

/-- The inside of a comment, and all that follows, if a text starts with spaces and the comment. -/
def insideComment? (cs : List Char) : Option (List Char) :=
  match cs.dropWhile (· == ' ') with
  | '/' :: '*' :: '*' :: r => some r
  | _ => none

theorem length_afterComment_le (cs : List Char) : (afterComment cs).length ≤ cs.length := by
  fun_induction afterComment cs with
  | case1 => exact Nat.le_refl 0
  | case2 r =>
    have hline := (List.dropWhile_suffix (l := r) (· != '\n')).length_le
    simp only [List.length_drop, List.length_cons]
    omega
  | case3 c r hopen ih => exact Nat.le_succ_of_le ih

theorem length_lt_of_insideComment? {cs inside : List Char} (h : insideComment? cs = some inside) :
    inside.length < cs.length := by
  have hindent := (List.dropWhile_suffix (l := cs) (· == ' ')).length_le
  unfold insideComment? at h
  split at h
  · next r hr =>
    cases h
    rw [hr] at hindent
    simp only [List.length_cons] at hindent
    omega
  · cases h

/-- The text without its comment blocks: of each block nothing is left, from the spaces in front of `/**` up to
the line feed after the first `*/`. -/
def withoutComments : List Char → List Char
  | [] => []
  | c :: r =>
    match _h : insideComment? (c :: r) with
    | some inside => withoutComments (afterComment inside)
    | none => c :: withoutComments r
termination_by cs => cs.length
decreasing_by
  · exact Nat.lt_of_le_of_lt (length_afterComment_le inside) (length_lt_of_insideComment? ‹_›)
  · exact Nat.lt_succ_self _

/-- No comment starts in a line without a slash. -/
theorem insideComment?_line {l : List Char} (h : '/' ∉ l) (rest : List Char) :
    insideComment? (l ++ '\n' :: rest) = none := by
  induction l with
  | nil => rfl
  | cons c l ih =>
    rw [List.mem_cons, not_or] at h
    by_cases hc : c = ' '
    · rw [hc]
      exact ih h.2
    · have hdrop : (c :: l ++ '\n' :: rest).dropWhile (· == ' ') = c :: l ++ '\n' :: rest :=
        List.dropWhile_cons_of_neg (by simpa using hc)
      rw [insideComment?, hdrop]
      split
      · next hslash => exact absurd (List.cons.inj hslash).1.symm h.1
      · rfl

/-- A line without slashes stays. -/
theorem withoutComments_line {l : List Char} (h : '/' ∉ l) (rest : List Char) :
    withoutComments (l ++ '\n' :: rest) = l ++ '\n' :: withoutComments rest := by
  induction l with
  | nil =>
    have hline := insideComment?_line (l := []) (by simp) rest
    rw [List.nil_append, withoutComments]
    split
    · next inside hinside => cases hline.symm.trans hinside
    · rfl
  | cons c l ih =>
    have hline := insideComment?_line h rest
    rw [List.mem_cons, not_or] at h
    rw [List.cons_append, withoutComments]
    split
    · next inside hinside => cases hline.symm.trans hinside
    · rw [ih h.2, List.cons_append]

/-! ### Texts that do not close a comment -/

/-- No `*/` occurs in the text. -/
def KeepsOpen (s : List Char) : Prop := ¬ ['*', '/'] <:+: s

theorem keepsOpen_nil : KeepsOpen [] := by
  simp [KeepsOpen]

theorem keepsOpen_cons {c : Char} {s : List Char} :
    KeepsOpen (c :: s) ↔ ¬ (c = '*' ∧ s.head? = some '/') ∧ KeepsOpen s := by
  have hprefix : ['*', '/'] <+: c :: s ↔ c = '*' ∧ s.head? = some '/' := by
    cases s <;> simp [List.cons_prefix_cons, eq_comm]
  rw [KeepsOpen, List.infix_cons_iff, not_or, hprefix, KeepsOpen]

theorem KeepsOpen.of_infix {s t : List Char} (h : KeepsOpen t) (hs : s <:+: t) : KeepsOpen s :=
  fun hclose => h (hclose.trans hs)

/-- Texts with something else than a star or slash between them. -/
theorem KeepsOpen.append {s t : List Char} {c : Char} (hs : KeepsOpen s) (ht : KeepsOpen t) (hstar : c ≠ '*')
    (hslash : c ≠ '/') : KeepsOpen (s ++ c :: t) := by
  induction s with
  | nil => exact keepsOpen_cons.mpr ⟨fun h => hstar h.1, ht⟩
  | cons d s ih =>
    rw [keepsOpen_cons] at hs
    refine keepsOpen_cons.mpr ⟨?_, ih hs.2⟩
    rintro ⟨hd, hhead⟩
    cases s with
    | nil => exact hslash (Option.some.inj hhead)
    | cons e s => exact hs.1 ⟨hd, hhead⟩

/-- A comment goes on up to the first end mark. -/
theorem afterComment_closed {s : List Char} (h : KeepsOpen s) (rest : List Char) :
    afterComment (s ++ '*' :: '/' :: '\n' :: rest) = rest := by
  induction s with
  | nil => rfl
  | cons c s ih =>
    rw [keepsOpen_cons] at h
    rw [List.cons_append, afterComment, ih h.2]
    rintro r rfl hr
    cases s with
    | nil => cases hr
    | cons d s => exact h.1 ⟨rfl, congrArg some (List.cons.inj hr).1⟩

theorem head?_keepOpen (s : List Char) : (keepOpen s).head? = s.head? := by
  fun_cases keepOpen s <;> rfl

/-- A description is written so that it does not end its comment. -/
theorem keepsOpen_keepOpen (s : List Char) : KeepsOpen (keepOpen s) := by
  fun_induction keepOpen s with
  | case1 => exact keepsOpen_nil
  | case2 r ih => simpa [keepsOpen_cons] using ih
  | case3 c r hopen ih =>
    refine keepsOpen_cons.mpr ⟨?_, ih⟩
    rintro ⟨rfl, hhead⟩
    rw [head?_keepOpen] at hhead
    obtain ⟨r', rfl⟩ := List.head?_eq_some_iff.mp hhead
    exact hopen r' rfl rfl

theorem keepsOpen_commentLine (line : List Char) : KeepsOpen (commentLine line).toList := by
  have hline : KeepsOpen (' ' :: '*' :: ' ' :: keepOpen line) := by
    simpa [keepsOpen_cons] using keepsOpen_keepOpen line
  have hprefix : (commentLine line).toList <+: ' ' :: '*' :: ' ' :: keepOpen line := by
    rw [commentLine, String.toList_ofList]
    exact Text.trimRight_isPrefix _
  exact hline.of_infix hprefix.isInfix

/-! ### Lines with comment blocks among them -/

/-- The first lines are the second ones with comment blocks of any indentation put in. The second ones are
code. -/
inductive Documents : List String → List String → Prop
  | nil : Documents [] []
  | line {l : String} (hl : isCode l = true) {ls ks : List String} (h : Documents ls ks) :
    Documents (l :: ls) (l :: ks)
  | comment (width : Nat) (description : Option String) {ls ks : List String} (h : Documents ls ks) :
    Documents (indent width (commentLines description) ++ ls) ks

theorem keepsOpen_spaces_append (width : Nat) {s : List Char} (h : KeepsOpen s) :
    KeepsOpen (List.replicate width ' ' ++ s) := by
  induction width with
  | zero => exact h
  | succ width ih => exact keepsOpen_cons.mpr ⟨fun hspace => by simp at hspace, ih⟩

theorem keepsOpen_indentLine (width : Nat) {l : String} (h : KeepsOpen l.toList) :
    KeepsOpen (indentLine width l).toList := by
  unfold indentLine
  split
  · exact h
  · rw [String.toList_append, String.toList_ofList]
    exact keepsOpen_spaces_append width h

/-- Lines that do not end a comment do not end it together. -/
theorem keepsOpen_unlines_append {ls : List String} (h : ∀ l ∈ ls, KeepsOpen l.toList) {t : List Char}
    (ht : KeepsOpen t) : KeepsOpen ((unlines ls).toList ++ t) := by
  induction ls with
  | nil => exact ht
  | cons l ls ih =>
    rw [List.forall_mem_cons] at h
    have htext : (unlines (l :: ls)).toList ++ t = l.toList ++ '\n' :: ((unlines ls).toList ++ t) := by
      simp [unlines_cons]
    rw [htext]
    exact h.1.append (ih h.2) (by decide) (by decide)

/-- The text of a block opens a comment and closes it at the end of the block only. -/
theorem toList_comment (width : Nat) {text : String} (h : text.isEmpty = false) (after : List Char) :
    ∃ inside, KeepsOpen (List.replicate width ' ' ++ '/' :: '*' :: '*' :: inside) ∧
      (unlines (indent width (commentLines (some text)))).toList ++ after =
        List.replicate width ' ' ++ '/' :: '*' :: '*' :: (inside ++ '*' :: '/' :: '\n' :: after) := by
  let body := indent width ((Text.lines (Text.trim text.toList)).map commentLine)
  have hopen : (indentLine width "/**").toList = List.replicate width ' ' ++ ['/', '*', '*'] := by
    simp [indentLine]
  refine ⟨'\n' :: ((unlines body).toList ++ (List.replicate width ' ' ++ [' '])), ?_, ?_⟩
  · have hbody : ∀ l ∈ body, KeepsOpen l.toList := by
      refine List.forall_mem_map.mpr fun l hl => keepsOpen_indentLine width ?_
      obtain ⟨line, -, rfl⟩ := List.mem_map.mp hl
      exact keepsOpen_commentLine line
    have hfirst : KeepsOpen (indentLine width "/**").toList :=
      keepsOpen_indentLine width (by simp [keepsOpen_cons, keepsOpen_nil])
    have hspace : KeepsOpen [' '] := by simp [keepsOpen_cons, keepsOpen_nil]
    have hlines := keepsOpen_unlines_append (List.forall_mem_cons.mpr ⟨hfirst, hbody⟩)
      (keepsOpen_spaces_append width hspace)
    simpa [unlines_cons, hopen] using hlines
  · have hlines : indent width (commentLines (some text)) =
        indentLine width "/**" :: (body ++ [indentLine width " */"]) := by
      rw [commentLines, if_neg (by simp [h]), indent_append]
      rfl
    have hclose : (indentLine width " */").toList = List.replicate width ' ' ++ [' ', '*', '/'] := by
      simp [indentLine]
    rw [hlines, unlines_cons, unlines_append, unlines_cons]
    simp [hopen, hclose]

theorem withoutComments_of_insideComment? {cs inside : List Char} (h : insideComment? cs = some inside) :
    withoutComments cs = withoutComments (afterComment inside) := by
  cases cs with
  | nil => cases h
  | cons c r =>
    rw [withoutComments]
    split
    · next inside' hinside =>
      rw [Option.some.inj (h.symm.trans hinside)]
    · next hnone => cases h.symm.trans hnone

/-- A comment block goes, whatever the description. -/
theorem withoutComments_comment (width : Nat) {text : String} (h : text.isEmpty = false) (after : List Char) :
    withoutComments ((unlines (indent width (commentLines (some text)))).toList ++ after) =
      withoutComments after := by
  obtain ⟨inside, hinside, htext⟩ := toList_comment width h after
  have hopen : insideComment? (List.replicate width ' ' ++
      '/' :: '*' :: '*' :: (inside ++ '*' :: '/' :: '\n' :: after)) =
        some (inside ++ '*' :: '/' :: '\n' :: after) := by
    rw [insideComment?, List.dropWhile_append_of_pos (by simp)]
    rfl
  have hclosed : KeepsOpen inside := by
    have hsuffix : inside <:+ List.replicate width ' ' ++ '/' :: '*' :: '*' :: inside :=
      ⟨List.replicate width ' ' ++ ['/', '*', '*'], by simp⟩
    exact hinside.of_infix hsuffix.isInfix
  rw [htext, withoutComments_of_insideComment? hopen, afterComment_closed hclosed]

/-- Without its comments the text of lines is that of the code. -/
theorem Documents.withoutComments_unlines {ls ks : List String} (h : Documents ls ks) :
    withoutComments (unlines ls).toList = (unlines ks).toList := by
  induction h with
  | nil => simp [withoutComments]
  | line hl h ih =>
    rw [unlines_cons, unlines_cons]
    simp only [String.toList_append, List.append_assoc]
    have hbreak : "\n".toList = ['\n'] := rfl
    rw [hbreak, List.singleton_append, withoutComments_line (slash_not_mem_of_isCode hl), ih,
      List.singleton_append]
  | comment width description h ih =>
    cases description with
    | none => exact ih
    | some text =>
      cases htext : text.isEmpty with
      | true =>
        have hlines : commentLines (some text) = [] := if_pos htext
        rw [hlines]
        exact ih
      | false => rw [unlines_append, String.toList_append, withoutComments_comment width htext, ih]

namespace Documents

variable {ls ls' ks ks' : List String}

theorem append (h : Documents ls ks) (h' : Documents ls' ks') : Documents (ls ++ ls') (ks ++ ks') := by
  induction h with
  | nil => exact h'
  | line hl h ih => exact .line hl ih
  | comment width description h ih =>
    rw [List.append_assoc]
    exact .comment width description ih

/-- A description in front of lines is taken away with the other comments. -/
theorem described (description : Option String) (h : Documents ls ks) :
    Documents (commentLines description ++ ls) ks := by
  rw [← indent_zero (commentLines description)]
  exact .comment 0 description h

theorem indent (h : Documents ls ks) (width : Nat) :
    Documents (Rendering.indent width ls) (Rendering.indent width ks) := by
  induction h with
  | nil => exact .nil
  | line hl h ih => exact .line ((isCode_indentLine width _).trans hl) ih
  | comment width' description h ih =>
    rw [indent_append, indent_indent]
    exact .comment _ description ih

theorem flatMap {α : Type} {f g : α → List String} {xs : List α} (h : ∀ x ∈ xs, Documents (f x) (g x)) :
    Documents (xs.flatMap f) (xs.flatMap g) := by
  induction xs with
  | nil => exact .nil
  | cons x xs ih =>
    rw [List.forall_mem_cons] at h
    rw [List.flatMap_cons, List.flatMap_cons]
    exact h.1.append (ih h.2)

theorem paragraphs {α : Type} {f g : α → List String} {xs : List α} (h : ∀ x ∈ xs, Documents (f x) (g x)) :
    Documents (Rendering.paragraphs (xs.map f)) (Rendering.paragraphs (xs.map g)) := by
  induction xs with
  | nil => exact .nil
  | cons x xs ih =>
    rw [List.forall_mem_cons] at h
    cases xs with
    | nil => exact h.1
    | cons y ys =>
      simp only [List.map_cons, Rendering.paragraphs, List.append_assoc, List.singleton_append]
      exact h.1.append (.line rfl (ih h.2))

end Documents

end Rendering

end GraphDecl
