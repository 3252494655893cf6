import Mathlib.Data.List.Basic
import GraphDecl.Proofs.Document.SameTokens
import GraphDecl.Proofs.Document.TokenText

/-!
Pieces of a text and the tokens they spell. A piece that is cut out of a text between two tokens has the same
tokens in every other text, at offsets that count from where it stands.
-/

namespace GraphDecl

def Lexeme.shift (offset : Nat) (l : Lexeme) : Lexeme :=
  { l with start := offset + l.start, stop := offset + l.stop }

theorem Lexeme.shift_shift (m n : Nat) (l : Lexeme) : (l.shift n).shift m = l.shift (m + n) := by
  simp [shift, Nat.add_assoc]

theorem Lexeme.map_shift_shift (m n : Nat) (ls : List Lexeme) :
    (ls.map (shift n)).map (shift m) = ls.map (shift (m + n)) := by
  rw [List.map_map]
  exact List.map_congr_left fun l _ => l.shift_shift m n

theorem Lexeme.map_token_shift (offset : Nat) (ls : List Lexeme) :
    (ls.map (shift offset)).map (·.token) = ls.map (·.token) := by
  rw [List.map_map]
  rfl

namespace Lexer

/-! ### What a text starts with -/

theorem lexemesFrom_nil (offset : Nat) : lexemesFrom offset [] = [⟨.eof, offset, offset⟩] := by
  rw [lexemesFrom]

theorem lexemesFrom_insignificant {c : Char} (h : isInsignificant c = true) (offset : Nat)
    (r : List Char) : lexemesFrom offset (c :: r) = lexemesFrom (offset + 1) r := by
  rw [lexemesFrom, if_pos h]

theorem isInsignificant_of_isNewline {c : Char} (h : isNewline c = true) : isInsignificant c = true := by
  simp only [isNewline, isInsignificant, Bool.or_eq_true] at h ⊢
  tauto

/-- A comment goes up to the end of its line. -/
theorem lexemesFrom_comment {w rest : List Char} (hw : ∀ d ∈ w, isNewline d = false)
    (hrest : ∀ y, rest.head? = some y → isNewline y = true) (offset : Nat) :
    lexemesFrom offset ('#' :: (w ++ rest)) = lexemesFrom (offset + 1 + w.length) rest := by
  have hline : (w ++ rest).takeWhile (!isNewline ·) = w := by
    rw [List.takeWhile_append_of_pos (by simpa using hw)]
    cases rest with
    | nil => simp
    | cons y rest => simp [hrest y rfl]
  rw [lexemesFrom, if_neg (by decide), if_pos rfl]
  simp only [hline, List.drop_left]

/-- A character with which a token starts. -/
def StartsToken (c : Char) : Prop := isInsignificant c = false ∧ c ≠ '#'

/-- A token stands in front of the tokens of the rest. -/
theorem lexemesFrom_token {c : Char} {r : List Char} {t : Token} {n : Nat} (hc : StartsToken c)
    (h : TokenAt c r t n) (offset : Nat) :
    lexemesFrom offset (c :: r) =
      ⟨t, offset, offset + 1 + n⟩ :: lexemesFrom (offset + 1 + n) (r.drop n) := by
  rw [lexemesFrom, if_neg (by rw [hc.1]; decide), if_neg hc.2, readToken_eq_ok_iff.mpr h]

/-- A token that is read does not stand for the end. -/
theorem TokenAt.isEnd {c : Char} {r : List Char} {t : Token} {n : Nat} (h : TokenAt c r t n) :
    t.isEnd = false := by
  cases h with
  | number _ _ _ _ ht =>
    subst ht
    split <;> rfl
  | _ => rfl

theorem TokenAt.eq_braceR {c : Char} {r : List Char} {n : Nat}
    (h : TokenAt c r (.punctuator .braceR) n) : c = '\x7d' ∧ n = 0 := by
  cases h with
  | punctuator hp =>
    refine ⟨?_, rfl⟩
    unfold Punctuator.ofChar? at hp
    split at hp <;> first | rfl | cases hp
  | number _ _ _ _ ht => split at ht <;> cases ht

/-! ### Pieces of texts -/

/-- The piece `w` of a text has the tokens `ls`, whatever stands before and behind it. -/
def Spells (w : List Char) (ls : List Lexeme) : Prop :=
  ∀ offset rest, lexemesFrom offset (w ++ rest) =
    ls.map (Lexeme.shift offset) ++ lexemesFrom (offset + w.length) rest

theorem spells_nil : Spells [] [] := fun _ _ => rfl

/-- What is spelt by two texts is spelt by both together, if the second stays as far behind. -/
theorem Spells.append {w w' : List Char} {ls ls' : List Lexeme} (h : Spells w ls) (h' : Spells w' ls') :
    Spells (w ++ w') (ls ++ ls'.map (Lexeme.shift w.length)) := by
  intro offset rest
  rw [List.append_assoc, h, h', List.map_append, Lexeme.map_shift_shift, List.append_assoc,
    List.length_append, Nat.add_assoc]

theorem spells_insignificant {c : Char} (h : isInsignificant c = true) : Spells [c] [] :=
  fun offset rest => lexemesFrom_insignificant h offset rest

/-- A comment and what follows it from the end of its line on. -/
theorem spells_comment {w gap : List Char} {y : Char} (hw : ∀ d ∈ w, isNewline d = false)
    (hy : isNewline y = true) (hgap : Spells (y :: gap) []) : Spells ('#' :: (w ++ y :: gap)) [] := by
  intro offset rest
  have hsplit : '#' :: (w ++ y :: gap) ++ rest = '#' :: (w ++ (y :: gap ++ rest)) := by simp
  rw [hsplit, lexemesFrom_comment hw (by simpa using hy), hgap]
  simp [Nat.add_assoc, Nat.add_comm 1]

theorem spells_brace : Spells ['\x7d'] [⟨.punctuator .braceR, 0, 1⟩] := by
  intro offset rest
  exact lexemesFrom_token (c := '\x7d') ⟨by decide, by decide⟩ (.punctuator rfl) offset

/-- A piece that starts with a token, if more of the piece follows it. -/
theorem spells_token {c : Char} {w z w' : List Char} {t : Token} {ls : List Lexeme} (hc : StartsToken c)
    (hread : ∀ z', z'.head? = (w' ++ z).head? → TokenAt c (w ++ z') t w.length)
    (hne : w' ≠ []) (hw' : Spells w' ls) :
    Spells (c :: (w ++ w')) (⟨t, 0, 1 + w.length⟩ :: ls.map (Lexeme.shift (1 + w.length))) := by
  intro offset rest
  have hhead : (w' ++ rest).head? = (w' ++ z).head? := by
    cases w' with
    | nil => exact absurd rfl hne
    | cons d w' => rfl
  rw [List.cons_append, List.append_assoc, lexemesFrom_token hc (hread _ hhead), List.drop_left, hw',
    List.map_cons, Lexeme.map_shift_shift]
  simp [Lexeme.shift, Nat.add_assoc, Nat.add_comm 1]

/-- A text without tokens. -/
def Blank (z : List Char) : Prop :=
  ∀ offset, lexemesFrom offset z = [⟨.eof, offset + z.length, offset + z.length⟩]

/-- The rest of a line and what comes from its end on. -/
theorem exists_line (cs : List Char) :
    ∃ w rest, cs = w ++ rest ∧ (cs.takeWhile (!isNewline ·)).length = w.length ∧
      (∀ d ∈ w, isNewline d = false) ∧ ∀ y, rest.head? = some y → isNewline y = true := by
  refine ⟨_, _, List.takeWhile_append_dropWhile.symm, rfl, ?_, ?_⟩
  · intro d hd
    simpa using List.all_eq_true.mp List.all_takeWhile d hd
  · intro y hy
    have h := List.head?_dropWhile_not (!isNewline ·) cs
    rw [hy] at h
    simpa using h

/-- A text is blank, or a piece without tokens stands before its first token. A line that follows a blank
text is no part of it. -/
theorem exists_gap (cs : List Char) :
    (∃ gap c r, cs = gap ++ c :: r ∧ Spells gap [] ∧ StartsToken c) ∨
      Blank cs ∧ Spells (cs ++ ['\n']) [] := by
  fun_induction lexemesFrom 0 cs with
  | case1 =>
    exact .inr ⟨fun offset => lexemesFrom_nil offset, spells_insignificant rfl⟩
  | case2 offset c r hc ih =>
    obtain ⟨gap, d, r, rfl, hgap, hd⟩ | ⟨hblank, hline⟩ := ih
    · exact .inl ⟨c :: gap, d, r, rfl, (spells_insignificant hc).append hgap, hd⟩
    · refine .inr ⟨?_, (spells_insignificant hc).append hline⟩
      intro offset
      rw [lexemesFrom_insignificant hc, hblank]
      simp [Nat.add_assoc, Nat.add_comm 1]
  | case3 offset r n hhash ih =>
    obtain ⟨w, rest, rfl, hlength, hw, hrest⟩ := exists_line r
    rw [show n = w.length from hlength, List.drop_left] at ih
    cases rest with
    | nil =>
      rw [List.append_nil]
      refine .inr ⟨?_, spells_comment hw (y := '\n') rfl (spells_insignificant rfl)⟩
      intro offset
      rw [← List.append_nil w, lexemesFrom_comment hw (by simp), lexemesFrom_nil]
      simp [Nat.add_assoc, Nat.add_comm 1]
    | cons y rest =>
      have hy : isNewline y = true := hrest y rfl
      have hinsignificant := isInsignificant_of_isNewline hy
      obtain ⟨gap, d, r, hr, hgap, hd⟩ | ⟨hblank, hline⟩ := ih
      · cases gap with
        | nil =>
          obtain ⟨rfl, rfl⟩ := List.cons.inj hr
          rw [hd.1] at hinsignificant
          cases hinsignificant
        | cons z gap =>
          obtain ⟨rfl, rfl⟩ := List.cons.inj hr
          exact .inl ⟨'#' :: (w ++ y :: gap), d, r, by simp, spells_comment hw hy hgap, hd⟩
      · refine .inr ⟨?_, ?_⟩
        · intro offset
          rw [lexemesFrom_comment hw hrest, hblank]
          simp [Nat.add_assoc, Nat.add_comm 1]
        · simpa using spells_comment hw hy hline
  | case4 offset c r hc hcomment t n hread ih =>
    exact .inl ⟨[], c, r, rfl, spells_nil, by simpa using hc, hcomment⟩
  | case5 offset c r hc hcomment fault hread =>
    exact .inl ⟨[], c, r, rfl, spells_nil, by simpa using hc, hcomment⟩

/-! ### Cutting texts -/

/-- A text starts with its end, with a fault, or with a token behind a piece without tokens. -/
theorem lexemesFrom_eq_cons {offset : Nat} {cs : List Char} {l : Lexeme} {ls : List Lexeme}
    (h : lexemesFrom offset cs = l :: ls) :
    (l.token = .eof ∧ ls = [] ∧ Blank cs ∧ Spells (cs ++ ['\n']) []) ∨
    (∃ e, l.token = .invalid e ∧ ls = []) ∨
    ∃ gap c r t n, cs = gap ++ c :: r ∧ Spells gap [] ∧ StartsToken c ∧ TokenAt c r t n ∧
      l = ⟨t, offset + gap.length, offset + gap.length + 1 + n⟩ ∧
      ls = lexemesFrom (offset + gap.length + 1 + n) (r.drop n) := by
  obtain ⟨gap, c, r, rfl, hgap, hc⟩ | ⟨hblank, hline⟩ := exists_gap cs
  · rw [hgap, List.map_nil, List.nil_append] at h
    cases hread : readToken c r with
    | error fault =>
      rw [lexemesFrom, if_neg (by rw [hc.1]; decide), if_neg hc.2, hread] at h
      cases h
      exact .inr (.inl ⟨fault.error, rfl, rfl⟩)
    | ok read =>
      obtain ⟨t, n⟩ := read
      have hread := readToken_eq_ok_iff.mp hread
      rw [lexemesFrom_token hc hread] at h
      cases h
      exact .inr (.inr ⟨gap, c, r, t, n, rfl, hgap, hc, hread, rfl, rfl⟩)
  · rw [hblank] at h
    cases h
    exact .inl ⟨rfl, rfl, hblank, hline⟩

/-- A text whose first token is the end has no tokens. -/
theorem blank_of_lexemesFrom {offset : Nat} {cs : List Char} {l : Lexeme} {ls : List Lexeme}
    (h : lexemesFrom offset cs = l :: ls) (hl : l.token = .eof) :
    Blank cs ∧ Spells (cs ++ ['\n']) [] := by
  obtain ⟨-, -, hblank⟩ | ⟨e, he, -⟩ | ⟨gap, c, r, t, n, -, -, -, hread, rfl, -⟩ := lexemesFrom_eq_cons h
  · exact hblank
  · rw [hl] at he
    cases he
  · have hend := hread.isEnd
    rw [show t = .eof from hl] at hend
    cases hend

/-- A line behind a blank text belongs to what follows. -/
theorem Blank.spells_newline {z : List Char} (h : Blank z) : Spells (z ++ ['\n']) [] :=
  (blank_of_lexemesFrom (h 0) rfl).2

theorem blank_nil : Blank [] := fun offset => lexemesFrom_nil offset

theorem Blank.append_gap {gap z : List Char} (hgap : Spells gap []) (h : Blank z) : Blank (gap ++ z) := by
  intro offset
  rw [hgap, h, List.length_append, Nat.add_assoc]
  rfl

/-- Tokens up to a closing brace are those of a piece of the text. -/
theorem exists_spelled {offset : Nat} {cs : List Char} {ls rest : List Lexeme}
    (h : lexemesFrom offset cs = ls ++ rest)
    (hclosed : ls.getLast?.map (·.token) = some (.punctuator .braceR)) :
    ∃ w z spelled, cs = w ++ z ∧ w ≠ [] ∧ Spells w spelled ∧ ls = spelled.map (Lexeme.shift offset) ∧
      spelled.getLast?.map (·.stop) = some w.length ∧ lexemesFrom (offset + w.length) z = rest := by
  induction ls generalizing offset cs with
  | nil => cases hclosed
  | cons l ls ih =>
    have hend : ls ++ rest = [] → l.token = .punctuator .braceR := by
      intro hnil
      simpa [(List.append_eq_nil_iff.mp hnil).1] using hclosed
    obtain ⟨heof, hnil, -⟩ | ⟨e, he, hnil⟩ | ⟨gap, c, r, t, n, rfl, hgap, hc, hread, rfl, hls⟩ :=
      lexemesFrom_eq_cons h
    · rw [hend hnil] at heof
      cases heof
    · rw [hend hnil] at he
      cases he
    · cases ls with
      | nil =>
        -- a brace is one whatever follows; every other token needs the next one behind it
        obtain rfl : t = .punctuator .braceR := by simpa using hclosed
        obtain ⟨rfl, rfl⟩ := hread.eq_braceR
        refine ⟨gap ++ ['\x7d'], r, _, by simp, by simp, hgap.append spells_brace, ?_, ?_, ?_⟩
        · simp [Lexeme.shift, Nat.add_assoc]
        · simp [Lexeme.shift]
        · simpa [Nat.add_assoc] using hls.symm
      | cons m ls =>
        obtain ⟨w, z, rfl, rfl, hw⟩ := hread.append
        rw [List.drop_left] at hls
        obtain ⟨w', z', spelled, rfl, hne, hspells, hspelled, hstop, hrest⟩ :=
          ih hls.symm (by simpa using hclosed)
        refine ⟨gap ++ c :: (w ++ w'), z', _, by simp, by simp,
          hgap.append (spells_token hc hw hne hspells), ?_, ?_, ?_⟩
        · rw [hspelled, List.nil_append, List.map_cons, List.map_cons, Lexeme.map_shift_shift,
            Lexeme.map_shift_shift]
          simp [Lexeme.shift, Nat.add_assoc]
        · obtain ⟨last, hlast, hlength⟩ := Option.map_eq_some_iff.mp hstop
          simp [List.getLast?_cons, hlast, ← hlength, Lexeme.shift, Nat.add_assoc, Nat.add_comm 1]
        · rw [← hrest]
          simp [Nat.add_assoc, Nat.add_comm 1]

/-- The last token of a text stands for its end. -/
theorem ended_lexemesFrom (offset : Nat) (cs : List Char) :
    Ended ((lexemesFrom offset cs).map (·.token)) := by
  fun_induction lexemesFrom offset cs with
  | case1 => exact ⟨.eof, rfl, rfl⟩
  | case2 _ _ _ _ ih => exact ih
  | case3 _ _ _ _ ih => exact ih
  | case4 offset c r _ _ token k hread ih =>
    obtain ⟨t, ht, hend⟩ := ih
    refine ⟨t, ?_, hend⟩
    rw [List.map_cons, List.getLast?_cons, ht]
    rfl
  | case5 => exact ⟨_, rfl, rfl⟩

end Lexer

end GraphDecl
