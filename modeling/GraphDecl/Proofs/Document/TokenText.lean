import GraphDecl.Proofs.Document.NumberText

/-!
The characters of a token. How many characters a token takes, and what it is, depends on these characters and
on the one behind them, whatever follows further on.
-/

namespace GraphDecl.Lexer

/-! ### Strings -/

theorem hexQuad?_eq_some {cs : List Char} {n : Nat} (h : hexQuad? cs = some n) :
    ∃ quad z, cs = quad ++ z ∧ quad.length = 4 ∧ (∀ c ∈ quad, Text.isHexDigit c = true) ∧
      ∀ z', hexQuad? (quad ++ z') = some n := by
  simp only [hexQuad?, Option.ite_none_right_eq_some, Option.some.injEq, List.all_eq_true] at h
  obtain ⟨⟨hlength, hdigits⟩, hn⟩ := h
  refine ⟨cs.take 4, cs.drop 4, (List.take_append_drop 4 cs).symm, hlength, hdigits, ?_⟩
  intro z'
  have htake : (cs.take 4 ++ z').take 4 = cs.take 4 := List.take_left' hlength
  simp [hexQuad?, htake, hlength, hn, List.all_eq_true.mpr hdigits]

theorem quadEscape_append {cs : List Char} {c : Char} {n : Nat} (h : quadEscape cs = .ok (c, n)) :
    ∃ w z, cs = w ++ z ∧ w.length + 1 = n ∧ (∃ d, w.head? = some d ∧ Text.isHexDigit d = true) ∧
      ∀ z', quadEscape (w ++ z') = .ok (c, n) := by
  unfold quadEscape at h
  dsimp only at h
  split at h
  · cases h
  · next m hm =>
    obtain ⟨quad, z, rfl, hlength, hdigits, hquad⟩ := hexQuad?_eq_some hm
    obtain ⟨d, quad, rfl⟩ : ∃ d more, quad = d :: more := List.exists_cons_of_length_eq_add_one hlength
    have hd : Text.isHexDigit d = true := hdigits d List.mem_cons_self
    split at h
    · next hscalar =>
      cases h
      refine ⟨d :: quad, z, rfl, by omega, ⟨d, rfl, hd⟩, ?_⟩
      intro z'
      simp only [quadEscape, hquad, hscalar, if_true]
    · next hscalar =>
      rw [List.drop_left' hlength] at h
      split at h
      · next r hz =>
        split at h
        · next low hlow =>
          split at h
          · next hpair =>
            obtain ⟨hc, rfl⟩ := Prod.mk.inj (Except.ok.inj h)
            obtain ⟨quad', z'', rfl, hlength', -, hquad'⟩ := hexQuad?_eq_some hlow
            refine ⟨d :: quad ++ '\\' :: 'u' :: quad', z'', by simp, ?_, ⟨d, rfl, hd⟩, ?_⟩
            · rw [List.length_append, hlength]
              simp [hlength']
            · intro z'
              rw [List.append_assoc]
              simp only [quadEscape, hquad, hscalar, List.drop_left' hlength]
              simp only [List.cons_append, hquad']
              rw [if_pos hpair, hc]
              rfl
          · cases h
        · cases h
      · cases h

theorem bracedEscape_append {cs : List Char} {c : Char} {n : Nat} (h : bracedEscape cs = .ok (c, n)) :
    ∃ w z, cs = w ++ z ∧ w.length + 2 = n ∧ ∀ z', bracedEscape (w ++ z') = .ok (c, n) := by
  unfold bracedEscape at h
  dsimp only at h
  split at h
  · next hclose =>
    split at h
    · next hvalue =>
      obtain ⟨hc, rfl⟩ := Prod.mk.inj (Except.ok.inj h)
      -- what is looked at is the number, its closing brace, and some more
      have hseen : cs.take 9 = (cs.take 9).takeWhile Text.isHexDigit ++ (cs.take 9).dropWhile Text.isHexDigit :=
        List.takeWhile_append_dropWhile.symm
      have hrun (z : List Char) (hz : z.head? = ((cs.take 9).dropWhile Text.isHexDigit).head?) :=
        takeWhile_append_of_head? hz
      generalize (cs.take 9).takeWhile Text.isHexDigit = number at *
      generalize (cs.take 9).dropWhile Text.isHexDigit = more at *
      have hmore : more.head? = some '\x7d' := by
        rw [hseen, List.getElem?_append_right (Nat.le_refl _), Nat.sub_self] at hclose
        rw [List.head?_eq_getElem?]
        exact hclose
      obtain ⟨t, rfl⟩ := List.head?_eq_some_iff.mp hmore
      have hlength : number.length + 1 ≤ 9 := by
        have hle := congrArg List.length hseen
        simp only [List.length_take, List.length_append, List.length_cons] at hle
        omega
      refine ⟨number ++ ['\x7d'], t ++ cs.drop 9, ?_, by simp, ?_⟩
      · calc cs = cs.take 9 ++ cs.drop 9 := (List.take_append_drop 9 cs).symm
          _ = number ++ ['\x7d'] ++ (t ++ cs.drop 9) := by simp [hseen]
      · intro z'
        rw [List.append_assoc, List.singleton_append]
        have htake : (number ++ '\x7d' :: z').take 9 = number ++ '\x7d' :: z'.take (8 - number.length) := by
          have hrest : 9 - number.length = 8 - number.length + 1 := by omega
          rw [List.take_append, List.take_of_length_le (by omega), hrest, List.take_succ_cons]
        have hnumber := hrun ('\x7d' :: z'.take (8 - number.length)) rfl
        simp [bracedEscape, htake, hnumber, hvalue, hc]
    · cases h
  · cases h

/-- An escape is read in the same way whatever comes behind it. -/
theorem escape_append {cs : List Char} {c : Char} {n : Nat} (h : escape cs = .ok (c, n)) :
    ∃ w z, cs = w ++ z ∧ w.length = n ∧ ∀ z', escape (w ++ z') = .ok (c, n) := by
  unfold escape at h
  split at h
  · obtain ⟨w, z, rfl, hlength, hw⟩ := bracedEscape_append h
    exact ⟨'u' :: '\x7b' :: w, z, rfl, by simp [← hlength], hw⟩
  · next r hbrace =>
    obtain ⟨w, z, rfl, hlength, hdigit, hw⟩ := quadEscape_append h
    refine ⟨'u' :: w, z, rfl, by simp [← hlength], ?_⟩
    intro z'
    obtain ⟨d, hd, hhex⟩ := hdigit
    obtain ⟨w, rfl⟩ := List.head?_eq_some_iff.mp hd
    have hne : d ≠ '\x7b' := by
      rintro rfl
      cases hhex
    rw [← hw z']
    simp [escape, hne]
  · next d r hbrace hquad =>
    split at h
    · next e he =>
      cases h
      refine ⟨[d], r, rfl, rfl, ?_⟩
      intro z'
      have hne : d ≠ 'u' := by
        rintro rfl
        cases he
      simp [escape, hne, he]
    · cases h
  · cases h

/-- A string ends with its closing quote. -/
theorem stringRest_append {offset stop : Nat} {cs value : List Char}
    (h : stringRest offset cs = .ok (value, stop)) :
    ∃ w z, cs = w ++ z ∧ w ≠ [] ∧ stop = offset + w.length ∧
      ∀ z', stringRest offset (w ++ z') = .ok (value, stop) := by
  fun_induction stringRest offset cs generalizing value stop with
  | case1 => cases h
  | case2 offset r =>
    cases h
    refine ⟨['"'], r, rfl, by simp, rfl, ?_⟩
    intro z'
    simp [stringRest]
  | case3 => cases h
  | case4 => cases h
  | case5 offset r c n hescape value' stop' hrest ih =>
    cases h
    obtain ⟨e, t, rfl, rfl, he⟩ := escape_append hescape
    rw [List.drop_left] at ih hrest
    obtain ⟨w, z, rfl, -, rfl, hw⟩ := ih hrest
    refine ⟨'\\' :: e ++ w, z, by simp, by simp, by simp; omega, ?_⟩
    intro z'
    rw [List.append_assoc, List.cons_append, stringRest, he]
    simp only [List.drop_left, hw]
  | case6 => cases h
  | case7 => cases h
  | case8 offset c r hquote hslash hnewline value' stop' hrest ih =>
    cases h
    obtain ⟨w, z, rfl, -, rfl, hw⟩ := ih hrest
    refine ⟨c :: w, z, rfl, by simp, by simp; omega, ?_⟩
    intro z'
    rw [List.cons_append, stringRest, if_neg hnewline, hw z']
    · exact hquote
    · exact hslash

/-- How a text starts does not change with what comes later. -/
theorem exists_append_of_append {p w z' t : List Char} (hlength : p.length ≤ w.length)
    (h : w ++ z' = p ++ t) (z : List Char) : ∃ t', w ++ z = p ++ t' := by
  obtain ⟨u, rfl⟩ := List.prefix_of_prefix_length_le ⟨t, h.symm⟩ (List.prefix_append w z') hlength
  exact ⟨u ++ z, List.append_assoc p u z⟩

/-- Whether a character stands for itself in a block string shows at the three characters behind it. -/
theorem blockRest_cons {c : Char} {w z : List Char} (hlength : 3 ≤ w.length)
    (hquotes : ∀ t, c = '"' → w ++ z = '"' :: '"' :: t → False)
    (hescape : ∀ t, c = '\\' → w ++ z = '"' :: '"' :: '"' :: t → False)
    (hbreak : ∀ t, c = '\r' → w ++ z = '\n' :: t → False) (offset : Nat) (z' : List Char) :
    blockRest offset (c :: (w ++ z')) =
      if isNewline c then (fun (ls, stop) => ([] :: ls, stop)) <$> blockRest (offset + 1) (w ++ z')
      else (fun (ls, stop) => (consFirst [c] ls, stop)) <$> blockRest (offset + 1) (w ++ z') := by
  rw [blockRest]
  · intro t hc ht
    obtain ⟨t', ht'⟩ := exists_append_of_append (p := ['"', '"']) (by simp; omega) ht z
    exact hquotes t' hc ht'
  · intro t hc ht
    obtain ⟨t', ht'⟩ := exists_append_of_append (p := ['"', '"', '"']) hlength ht z
    exact hescape t' hc ht'
  · intro t hc ht
    obtain ⟨t', ht'⟩ := exists_append_of_append (p := ['\n']) (by simp; omega) ht z
    exact hbreak t' hc ht'

/-- A block string ends with three quotes. -/
theorem blockRest_append {offset stop : Nat} {cs : List Char} {lines : List (List Char)}
    (h : blockRest offset cs = .ok (lines, stop)) :
    ∃ w z, cs = w ++ z ∧ 3 ≤ w.length ∧ stop = offset + w.length ∧
      ∀ z', blockRest offset (w ++ z') = .ok (lines, stop) := by
  fun_induction blockRest offset cs generalizing lines stop with
  | case1 offset r =>
    cases h
    refine ⟨['"', '"', '"'], r, rfl, by simp, rfl, ?_⟩
    intro z'
    simp [blockRest]
  | case2 offset r ih =>
    obtain ⟨⟨ls, last⟩, hrest, heq⟩ := map_eq_ok_iff.mp h
    cases heq
    obtain ⟨w, z, rfl, -, rfl, hw⟩ := ih hrest
    refine ⟨'\\' :: '"' :: '"' :: '"' :: w, z, rfl, by simp, by simp; omega, ?_⟩
    intro z'
    exact map_eq_ok_iff.mpr ⟨_, hw z', rfl⟩
  | case3 offset r ih =>
    obtain ⟨⟨ls, last⟩, hrest, heq⟩ := map_eq_ok_iff.mp h
    cases heq
    obtain ⟨w, z, rfl, hlength, rfl, hw⟩ := ih hrest
    refine ⟨'\r' :: '\n' :: w, z, rfl, by simp; omega, by simp; omega, ?_⟩
    intro z'
    exact map_eq_ok_iff.mpr ⟨_, hw z', rfl⟩
  | case4 offset c r hquotes hescape hbreak hnewline ih =>
    obtain ⟨⟨ls, last⟩, hrest, heq⟩ := map_eq_ok_iff.mp h
    cases heq
    obtain ⟨w, z, rfl, hlength, rfl, hw⟩ := ih hrest
    refine ⟨c :: w, z, rfl, by simp; omega, by simp; omega, ?_⟩
    intro z'
    rw [List.cons_append, blockRest_cons hlength hquotes hescape hbreak, if_pos hnewline]
    exact map_eq_ok_iff.mpr ⟨_, hw z', rfl⟩
  | case5 offset c r hquotes hescape hbreak hnewline ih =>
    obtain ⟨⟨ls, last⟩, hrest, heq⟩ := map_eq_ok_iff.mp h
    cases heq
    obtain ⟨w, z, rfl, hlength, rfl, hw⟩ := ih hrest
    refine ⟨c :: w, z, rfl, by simp; omega, by simp; omega, ?_⟩
    intro z'
    rw [List.cons_append, blockRest_cons hlength hquotes hescape hbreak, if_neg hnewline]
    exact map_eq_ok_iff.mpr ⟨_, hw z', rfl⟩
  | case6 => cases h

/-! ### Tokens -/

/-- The token that starts with `c` and takes `n` characters of `r` behind it. -/
inductive TokenAt (c : Char) (r : List Char) : Token → Nat → Prop
  | punctuator {p : Punctuator} (hp : Punctuator.ofChar? c = some p) : TokenAt c r (.punctuator p) 0
  | name (hp : Punctuator.ofChar? c = none) (hc : isNameStart c = true) :
    TokenAt c r (.name (String.ofList (c :: r.takeWhile isNameContinue)))
      (r.takeWhile isNameContinue).length
  | number {t : Token} {isFloat : Bool} {width : Nat} (hp : Punctuator.ofChar? c = none)
    (hc : ¬ isNameStart c = true) (hdigit : (c.isDigit || c == '-') = true)
    (hwidth : numberWidth (c :: r) = .ok (isFloat, width))
    (ht : (if isFloat then Token.float (String.ofList ((c :: r).take width))
      else .int (String.ofList ((c :: r).take width))) = t) : TokenAt c r t (width - 1)
  | blockString {t : List Char} {lines : List (List Char)} {stop : Nat} (hc : c = '"')
    (hr : r = '"' :: '"' :: t) (hlines : blockRest 3 t = .ok (lines, stop)) :
    TokenAt c r (.blockString (blockValue lines)) (stop - 1)
  | string {value : List Char} {stop : Nat} (hc : c = '"') (hr : ∀ t, r = '"' :: '"' :: t → False)
    (hvalue : stringRest 1 r = .ok (value, stop)) : TokenAt c r (.string (String.ofList value)) (stop - 1)
  | spread {t : List Char} (hc : c = '.') (hr : r = '.' :: '.' :: t) :
    TokenAt c r (.punctuator .spread) 2

/-- What the lexer reads is a token at this place, and every token is read. -/
theorem readToken_eq_ok_iff {c : Char} {r : List Char} {t : Token} {n : Nat} :
    readToken c r = .ok (t, n) ↔ TokenAt c r t n := by
  constructor
  · intro h
    unfold readToken at h
    split at h
    · next p hp =>
      cases h
      exact .punctuator hp
    next hp =>
    split at h
    · next hc =>
      cases h
      exact .name hp hc
    next hc =>
    split at h
    · next hdigit =>
      obtain ⟨⟨isFloat, width⟩, hwidth, h⟩ := bind_eq_ok_iff.mp h
      cases h
      exact .number hp hc hdigit hwidth rfl
    split at h
    · obtain ⟨⟨lines, stop⟩, hlines, h⟩ := bind_eq_ok_iff.mp h
      cases h
      exact .blockString rfl rfl hlines
    · next hblock =>
      obtain ⟨⟨value, stop⟩, hvalue, h⟩ := bind_eq_ok_iff.mp h
      cases h
      exact .string rfl hblock hvalue
    · cases h
      exact .spread rfl rfl
    · cases h
    · cases h
  · intro h
    cases h with
    | punctuator hp => simp [readToken, hp]
    | name hp hc => simp [readToken, hp, hc]
    | number hp hc hdigit hwidth ht =>
      subst ht
      simp only [readToken, hp, if_neg hc, if_pos hdigit]
      exact bind_eq_ok_iff.mpr ⟨_, hwidth, rfl⟩
    | blockString hc hr hlines =>
      subst hc hr
      exact bind_eq_ok_iff.mpr ⟨_, hlines, rfl⟩
    | string hc hr hvalue =>
      subst hc
      rw [readToken]
      · exact bind_eq_ok_iff.mpr ⟨_, hvalue, rfl⟩
      · exact hr
    | spread hc hr =>
      subst hc hr
      rfl

/-- The characters of a number behind its first one. -/
theorem numberRest_append {c : Char} {r : List Char} {isFloat : Bool} {width : Nat}
    (h : numberWidth (c :: r) = .ok (isFloat, width)) :
    ∃ w z, r = w ++ z ∧ w.length = width - 1 ∧ ∀ z', z'.head? = z.head? →
      numberWidth (c :: (w ++ z')) = .ok (isFloat, width) ∧
      (c :: (w ++ z')).take width = (c :: r).take width := by
  obtain ⟨w, z, hcr, hlength, hpos, hw⟩ := numberWidth_append h
  cases w with
  | nil => simp at hlength; omega
  | cons b w =>
    obtain ⟨rfl, hr⟩ := List.cons.inj hcr
    have htake (z : List Char) : (c :: (w ++ z)).take width = c :: w := List.take_left' hlength
    refine ⟨w, z, hr, by simp at hlength; omega, ?_⟩
    intro z' hz'
    rw [hcr, htake]
    exact ⟨hw z' hz', (htake z).symm⟩

/-- An empty string is no block string as long as no third quote follows. -/
theorem not_blockString_append {w z : List Char} (hne : w ≠ [])
    (h : ∀ t, w ++ z = '"' :: '"' :: t → False) {z' : List Char} (hz' : z'.head? = z.head?) :
    ∀ t, w ++ z' = '"' :: '"' :: t → False := by
  intro t ht
  match w, hne, ht with
  | [a], _, ht =>
    obtain ⟨rfl, rfl⟩ := List.cons.inj ht
    obtain ⟨t', rfl⟩ := List.head?_eq_some_iff.mp hz'.symm
    exact h t' rfl
  | a :: b :: w, _, ht =>
    obtain ⟨t', ht'⟩ := exists_append_of_append (p := ['"', '"']) (by simp) ht z
    exact h t' ht'

/-- A token is the same wherever the characters that it takes stand, if the same character follows them. -/
theorem TokenAt.append {c : Char} {r : List Char} {t : Token} {n : Nat} (h : TokenAt c r t n) :
    ∃ w z, r = w ++ z ∧ w.length = n ∧ ∀ z', z'.head? = z.head? → TokenAt c (w ++ z') t n := by
  cases h with
  | punctuator hp => exact ⟨[], r, rfl, rfl, fun _ _ => .punctuator hp⟩
  | name hp hc =>
    refine ⟨_, _, List.takeWhile_append_dropWhile.symm, rfl, ?_⟩
    intro z' hz'
    have hname := TokenAt.name (r := r.takeWhile isNameContinue ++ z') hp hc
    rwa [takeWhile_append_of_head? hz'] at hname
  | number hp hc hdigit hwidth ht =>
    obtain ⟨w, z, rfl, hlength, hw⟩ := numberRest_append hwidth
    refine ⟨w, z, rfl, hlength, ?_⟩
    intro z' hz'
    obtain ⟨hwidth', htake⟩ := hw z' hz'
    exact .number hp hc hdigit hwidth' (by rw [htake, ht])
  | blockString hc hr hlines =>
    obtain ⟨w, z, rfl, hlength, rfl, hw⟩ := blockRest_append hlines
    exact ⟨'"' :: '"' :: w, z, hr, by simp; omega, fun z' _ => .blockString hc rfl (hw z')⟩
  | string hc hr hvalue =>
    obtain ⟨w, z, rfl, hne, rfl, hw⟩ := stringRest_append hvalue
    refine ⟨w, z, rfl, by simp, ?_⟩
    intro z' hz'
    exact .string hc (not_blockString_append hne hr hz') (hw z')
  | spread hc hr => exact ⟨['.', '.'], _, hr, rfl, fun _ _ => .spread hc rfl⟩

end GraphDecl.Lexer
