import GraphDecl.Proofs.Rendering.Comments
import GraphDecl.Proofs.Text.LineBreaks

/-!
The comment block of a description. It is opened and closed once, and between the two it has a line for each line of
the trimmed description, whatever that is: runs of stars and slashes, line breaks of every kind, blanks at the ends of
lines, or nothing but blanks.
-/

namespace GraphDecl.Rendering

open Text

/-! ### Where a comment is closed -/

/-- Between texts that do not close a comment, `*/` stands at one place only. -/
theorem KeepsOpen.closed_iff {s t before after : List Char} (hs : KeepsOpen s) (ht : KeepsOpen t) :
    s ++ '*' :: '/' :: t = before ++ '*' :: '/' :: after ↔ before = s ∧ after = t := by
  constructor
  · intro h
    rcases List.append_eq_append_iff.mp h with ⟨mid, rfl, hmid⟩ | ⟨mid, rfl, hmid⟩
    · -- a later place would be behind the slash
      rcases mid with _ | ⟨c, _ | ⟨d, mid⟩⟩
      · simpa [eq_comm] using hmid
      · simp at hmid
      · simp only [List.cons_append, List.cons.injEq] at hmid
        obtain ⟨-, -, rfl⟩ := hmid
        exact absurd ⟨mid, after, by simp⟩ ht
    · -- an earlier one would be in front of the star
      rcases mid with _ | ⟨c, _ | ⟨d, mid⟩⟩
      · simpa [eq_comm] using hmid
      · simp at hmid
      · simp only [List.cons_append, List.cons.injEq] at hmid
        obtain ⟨rfl, rfl, -⟩ := hmid
        exact absurd ⟨before, mid, by simp⟩ hs
  · rintro ⟨rfl, rfl⟩
    rfl

/-- Putting in the backslashes is a replacement of all `*/`, and no new one arises. -/
theorem keepOpen_eq_replaceAll (s : List Char) : keepOpen s = replaceAll "*/".toList "*\\/".toList s := by
  rw [replaceAll]
  fun_induction keepOpen s with
  | case1 => rfl
  | case2 r ih => simp [replaceFrom, ih]
  | case3 c r hopen ih =>
    have hprefix : "*/".toList.isPrefixOf (c :: r) = false := by
      rw [Bool.eq_false_iff]
      intro hprefix
      obtain ⟨hc, r', hr⟩ := List.cons_prefix_cons.mp (List.isPrefixOf_iff_prefix.mp hprefix)
      exact hopen r' hc.symm hr.symm
    rw [replaceFrom, hprefix, if_neg Bool.false_ne_true, ih]

/-! ### Lines of a block -/

theorem isLine_keepOpen {l : List Char} (h : IsLine l) : IsLine (keepOpen l) := by
  have hslash : isLineBreak '\\' = false := by decide
  fun_induction keepOpen l with
  | case1 => exact isLine_nil
  | case2 r ih =>
    rw [isLine_cons, isLine_cons] at h
    simp [isLine_cons, h.1, h.2.1, hslash, ih h.2.2]
  | case3 c r hopen ih =>
    rw [isLine_cons] at h
    exact isLine_cons.mpr ⟨h.1, ih h.2⟩

theorem isLine_spaces (width : Nat) : IsLine (List.replicate width ' ') := by
  intro c hc
  rw [List.eq_of_mem_replicate hc]
  decide

theorem toList_unlines (ls : List String) :
    (unlines ls).toList = (ls.map String.toList).flatMap (· ++ ['\n']) := by
  induction ls with
  | nil => rfl
  | cons l ls ih => simp [unlines_cons, ih]

def blockLine (indent l : List Char) : List Char := trimRight (indent ++ " * ".toList ++ keepOpen l)

theorem blockLine_eq (indent l : List Char) :
    blockLine indent l = indent ++ " *".toList ++ trimRight (' ' :: keepOpen l) := by
  have hstar : NoTrailingBlank (indent ++ " *".toList) :=
    noTrailingBlank_of_getLast? (c := '*') (by simp) (by decide)
  have hline : indent ++ " * ".toList ++ keepOpen l = indent ++ " *".toList ++ (' ' :: keepOpen l) := by simp
  rw [blockLine, hline, trimRight_append_right hstar]

/-- Trimming a line and then moving it right is trimming the line that has been moved. -/
theorem toList_indentLine_commentLine (width : Nat) (l : List Char) :
    (indentLine width (commentLine l)).toList = blockLine (List.replicate width ' ') l := by
  have hline : (commentLine l).toList = " *".toList ++ trimRight (' ' :: keepOpen l) := by
    rw [commentLine, String.toList_ofList]
    exact blockLine_eq [] l
  have hne : commentLine l ≠ "" := by
    intro hempty
    simp [hempty] at hline
  rw [blockLine_eq, indentLine, if_neg (by simpa using hne), String.toList_append, String.toList_ofList, hline,
    List.append_assoc]

theorem isLine_blockLine {indent l : List Char} (hindent : IsLine indent) (hl : IsLine l) :
    IsLine (blockLine indent l) := by
  have hstar : IsLine " * ".toList := by simp +decide [isLine_cons, isLine_nil]
  exact ((hindent.append hstar).append (isLine_keepOpen hl)).of_isPrefix (trimRight_isPrefix _)

/-- `shown` stands for the line `l` of a text: it is indented and starred, has a backslash in every `*/`, and has no
blanks at its end. -/
structure Shows (indent l shown : List Char) : Prop where
  starred : indent ++ " *".toList <+: shown
  text : ∃ blanks, indent ++ " * ".toList ++ replaceAll "*/".toList "*\\/".toList l = shown ++ blanks ∧
    ∀ c ∈ blanks, isBlank c = true
  last : NoTrailingBlank shown

/-- A line of the block shows the line of the text that it stands for. -/
theorem shows_blockLine (indent l : List Char) : Shows indent l (blockLine indent l) := by
  constructor
  · rw [blockLine_eq]
    exact List.prefix_append _ _
  · rw [← keepOpen_eq_replaceAll]
    exact exists_blanks_trimRight _
  · exact noTrailingBlank_trimRight _

/-! ### The block -/

/-- The lines of a block with the lines `inner` between the first and the last one. -/
def blockLines (indent : List Char) (inner : List (List Char)) : List (List Char) :=
  (indent ++ "/**".toList) :: inner ++ [indent ++ " */".toList]

/-- One comment that starts with the block, ends with it and is not closed before. Its lines are ended by line feeds
and hold no line breaks, and no line has blanks at its end. -/
structure IsClosedBlock (indent : List Char) (inner : List (List Char)) (block : List Char) : Prop where
  opened : indent ++ "/**".toList <+: block
  closed_iff : ∀ after, (∃ before, block = before ++ "*/".toList ++ after) ↔ after = ['\n']
  lines_iff : ∀ ls, InLines block ls ↔ ls = blockLines indent inner
  last : ∀ l ∈ blockLines indent inner, NoTrailingBlank l
  onlyFeeds : ∀ c ∈ block, isLineBreak c = true → c = '\n'

theorem isLine_of_mem_blockLines {indent : List Char} {inner : List (List Char)} (hindent : IsLine indent)
    (hinner : ∀ l ∈ inner, IsLine l) : ∀ l ∈ blockLines indent inner, IsLine l := by
  have hopen : IsLine "/**".toList := by simp +decide [isLine_cons, isLine_nil]
  have hclose : IsLine " */".toList := by simp +decide [isLine_cons, isLine_nil]
  intro l hl
  rcases List.mem_append.mp hl with hl | hl
  · rcases List.mem_cons.mp hl with rfl | hl
    · exact hindent.append hopen
    · exact hinner l hl
  · rw [List.mem_singleton.mp hl]
    exact hindent.append hclose

theorem noTrailingBlank_of_mem_blockLines {indent : List Char} {inner : List (List Char)}
    (hinner : ∀ l ∈ inner, NoTrailingBlank l) : ∀ l ∈ blockLines indent inner, NoTrailingBlank l := by
  intro l hl
  rcases List.mem_append.mp hl with hl | hl
  · rcases List.mem_cons.mp hl with rfl | hl
    · exact noTrailingBlank_of_getLast? (c := '*') (by simp) (by decide)
    · exact hinner l hl
  · rw [List.mem_singleton.mp hl]
    exact noTrailingBlank_of_getLast? (c := '/') (by simp) (by decide)

/-- The lines of the block for a text, but for the first and the last one. -/
def shownLines (width : Nat) (text : String) : List (List Char) :=
  (lines (trim text.toList)).map (blockLine (List.replicate width ' '))

theorem isLine_of_mem_shownLines (width : Nat) (text : String) : ∀ l ∈ shownLines width text, IsLine l := by
  refine List.forall_mem_map.mpr fun l hl => ?_
  exact isLine_blockLine (isLine_spaces width) ((inLines_lines _).isLine l hl)

variable {text : String}

/-- The lines that are written are those of a block. -/
theorem map_toList_commentLines (h : text ≠ "") (width : Nat) :
    (indent width (commentLines (some text))).map String.toList =
      blockLines (List.replicate width ' ') (shownLines width text) := by
  have hshown : ((lines (trim text.toList)).map commentLine).map (fun l => (indentLine width l).toList) =
      shownLines width text := by
    rw [List.map_map]
    exact List.map_congr_left fun l _ => toList_indentLine_commentLine width l
  have hopen : (indentLine width "/**").toList = List.replicate width ' ' ++ "/**".toList := by
    simp [indentLine]
  have hclose : (indentLine width " */").toList = List.replicate width ' ' ++ " */".toList := by
    simp [indentLine]
  rw [commentLines, if_neg (by simpa using h), indent, List.map_map, blockLines, ← hshown, ← hopen, ← hclose,
    List.map_append, List.map_cons]
  rfl

/-- The block ends at its last line, and nowhere before. -/
theorem comment_closed_iff (h : text ≠ "") (width : Nat) (after : List Char) :
    (∃ before, (comment (some text) width).toList = before ++ "*/".toList ++ after) ↔ after = ['\n'] := by
  obtain ⟨inside, hinside, htext⟩ := toList_comment width (by simpa using h) []
  have hblock : (comment (some text) width).toList =
      List.replicate width ' ' ++ '/' :: '*' :: '*' :: inside ++ '*' :: '/' :: ['\n'] := by
    rw [List.append_nil] at htext
    rw [comment, htext]
    simp
  have hfeed : KeepsOpen ['\n'] := by simp [keepsOpen_cons, keepsOpen_nil]
  constructor
  · rintro ⟨before, hbefore⟩
    have hsame := hblock.symm.trans (hbefore.trans (List.append_assoc _ _ _))
    exact ((hinside.closed_iff hfeed).mp hsame).2
  · rintro rfl
    exact ⟨List.replicate width ' ' ++ '/' :: '*' :: '*' :: inside, by simp [hblock]⟩

theorem isClosedBlock_comment (h : text ≠ "") (width : Nat) :
    IsClosedBlock (List.replicate width ' ') (shownLines width text) (comment (some text) width).toList := by
  have hblock : (comment (some text) width).toList =
      (blockLines (List.replicate width ' ') (shownLines width text)).flatMap (· ++ ['\n']) := by
    rw [comment, toList_unlines, map_toList_commentLines h]
  have hlines := isLine_of_mem_blockLines (isLine_spaces width) (isLine_of_mem_shownLines width text)
  constructor
  · rw [hblock, blockLines, List.cons_append, List.flatMap_cons, List.append_assoc]
    exact List.prefix_append _ _
  · exact comment_closed_iff h width
  · intro ls
    rw [hblock, inLines_iff, (inLines_ended hlines).lines_eq]
  · exact noTrailingBlank_of_mem_blockLines (List.forall_mem_map.mpr fun l _ => (shows_blockLine _ l).last)
  · intro c hc hbreak
    rw [hblock, List.mem_flatMap] at hc
    obtain ⟨l, hl, hc⟩ := hc
    rcases List.mem_append.mp hc with hc | hc
    · cases hbreak.symm.trans (hlines l hl c hc)
    · exact List.mem_singleton.mp hc

/-- A description that is not empty, whatever its characters, makes one comment that is opened at the indentation and
closed by its last two characters in front of the last line feed. Between these lines it has one for each line of the
trimmed description, in order, and no other. A negative number of columns is none. -/
theorem comment_isOneBlock (h : text ≠ "") (columns : Int) :
    ∃ trimmed ls shown, (∀ t, TrimsTo text.toList t ↔ t = trimmed) ∧ (∀ ks, InLines trimmed ks ↔ ks = ls) ∧
      List.Forall₂ (Shows (List.replicate columns.toNat ' ')) ls shown ∧
      IsClosedBlock (List.replicate columns.toNat ' ') shown (comment (some text) columns.toNat).toList := by
  refine ⟨trim text.toList, lines (trim text.toList), shownLines columns.toNat text, fun _ => trimsTo_iff,
    fun _ => inLines_iff, ?_, isClosedBlock_comment h columns.toNat⟩
  rw [shownLines, List.forall₂_map_right_iff, List.forall₂_same]
  intro l _
  exact shows_blockLine _ l

/-- Ends of comments at the start, at the end and across a line break, blanks of several kinds, and three kinds of
line breaks. -/
theorem comment_isOneBlock_of_stars :
    let text := "\x0c**/ /*\r\n/\x1f \u2028\t*/*/\u00a0\n"
    text ≠ "" ∧ comment (some text) (2 : Int).toNat = "  /**\n   * **\\/ /*\n   * /\n   * \t*\\/*\\/\n   */\n" ∧
      ∃ trimmed ls shown, (∀ t, TrimsTo text.toList t ↔ t = trimmed) ∧ (∀ ks, InLines trimmed ks ↔ ks = ls) ∧
        List.Forall₂ (Shows (List.replicate (2 : Int).toNat ' ')) ls shown ∧
        IsClosedBlock (List.replicate (2 : Int).toNat ' ') shown (comment (some text) (2 : Int).toNat).toList :=
  ⟨by decide, by decide, comment_isOneBlock (by decide) 2⟩

/-- A description of blanks makes a block without lines. -/
example : comment (some " \t\r\n") 1 = " /**\n  */\n" := by
  decide

end GraphDecl.Rendering
