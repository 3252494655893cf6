import GraphDecl.Proofs.Document.NamedDefinitions
import GraphDecl.Proofs.Document.OperationTexts

/-!
Where definitions start. Tokens start one behind the other, and every definition takes at least one token, so
that each definition of a document starts behind the one in front of it.
-/

open GraphDecl.Lexer GraphDecl.Parser

namespace GraphDecl

/-! ### Tokens -/

/-- Tokens start in order, none of them before the text. -/
theorem starts_lexemesFrom (offset : Nat) (cs : List Char) :
    (lexemesFrom offset cs).Pairwise (·.start < ·.start) ∧ ∀ l ∈ lexemesFrom offset cs, offset ≤ l.start := by
  fun_induction lexemesFrom offset cs with
  | case1 => simp
  | case2 offset c r _ ih => exact ⟨ih.1, fun l hl => Nat.le_of_succ_le (ih.2 l hl)⟩
  | case3 offset c r _ ih =>
    refine ⟨ih.1, fun l hl => ?_⟩
    have hle := ih.2 l hl
    omega
  | case4 offset c r _ _ token n hread ih =>
    -- a token takes at least its first character
    have hlater : ∀ l ∈ lexemesFrom (offset + 1 + n) (r.drop n), offset < l.start := by
      intro l hl
      have hle := ih.2 l hl
      omega
    refine ⟨List.pairwise_cons.mpr ⟨hlater, ih.1⟩, List.forall_mem_cons.mpr ⟨Nat.le_refl _, ?_⟩⟩
    exact fun l hl => Nat.le_of_lt (hlater l hl)
  | case5 => simp

/-! ### Definitions -/

theorem Remaining.eq_of_tokens {ts us : Remaining} (h : ts.tokens = us.tokens) : ts = us := by
  obtain ⟨tokens, count, hcount⟩ := ts
  obtain ⟨tokens', count', hcount'⟩ := us
  obtain rfl : tokens = tokens' := h
  rw [← hcount'] at hcount
  subst hcount
  rfl

namespace Parser

theorem headD_of_definition {ts rest : Remaining} {d : Definition} (h : definition ts = .ok (d, rest)) :
    ts.tokens.headD .eof ≠ .eof := by
  intro heof
  rw [definition_eq, heof] at h
  cases h

/-- A definition that took nothing would be read again and again. -/
theorem ne_of_unroll_definitions {depth : Nat} {ts rest : Remaining} {ds : List (Definition × Nat × Nat)}
    (h : unroll unexpected definitionsStep depth ts = .ok (ds, rest)) (d : Definition) :
    definition ts ≠ .ok (d, ts) := by
  intro hd
  induction depth generalizing ds with
  | zero => cases h
  | succ depth ih =>
    obtain ⟨d', us, ds', hd', -, hend⟩ := definitionsStep_eq_ok h
    cases hd.symm.trans hd'
    obtain ⟨heof, -⟩ | ⟨-, hself⟩ := hend
    · exact headD_of_definition hd heof
    · exact ih hself

/-- Fewer and fewer tokens are left before the definitions of a document. -/
theorem counts_of_unroll {depth : Nat} {ts rest : Remaining} {ds : List (Definition × Nat × Nat)}
    (hts : NamedTokens ts.tokens) (h : unroll unexpected definitionsStep depth ts = .ok (ds, rest)) :
    ds.Pairwise (fun x y => y.2.1 < x.2.1) ∧ ∀ x ∈ ds, 0 < x.2.1 ∧ x.2.1 ≤ ts.count := by
  induction depth generalizing ts ds with
  | zero => cases h
  | succ depth ih =>
    obtain ⟨d, us, ds', hd, rfl, hend⟩ := definitionsStep_eq_ok h
    have hpositive : 0 < ts.count := by
      rw [ts.count_eq, List.length_pos_iff]
      intro hnil
      exact headD_of_definition hd (by rw [hnil]; rfl)
    obtain ⟨-, rfl⟩ | ⟨-, hself⟩ := hend
    · simpa using hpositive
    · obtain ⟨-, hsuffix⟩ := gives_definition _ _ _ hts hd
      have hless : us.count < ts.count := by
        rw [us.count_eq, ts.count_eq]
        refine Nat.lt_of_le_of_ne hsuffix.length_le fun hlength => ?_
        have hsame : us = ts := Remaining.eq_of_tokens (hsuffix.eq_of_length hlength)
        rw [hsame] at hself hd
        exact ne_of_unroll_definitions hself d hd
      obtain ⟨hpairs, hcounts⟩ := ih (hts.of_suffix hsuffix) hself
      refine ⟨List.pairwise_cons.mpr ⟨fun x hx => ?_, hpairs⟩, ?_⟩
      · exact Nat.lt_of_le_of_lt (hcounts x hx).2 hless
      · refine List.forall_mem_cons.mpr ⟨⟨hpositive, Nat.le_refl _⟩, fun x hx => ?_⟩
        exact ⟨(hcounts x hx).1, Nat.le_of_lt (Nat.lt_of_le_of_lt (hcounts x hx).2 hless)⟩

end Parser

/-! ### Documents -/

/-- With fewer tokens left, a later place in the text is reached. -/
theorem start_passageOf_lt {text : String} {x y : Definition × Nat × Nat} (hy : 0 < y.2.1) (hless : y.2.1 < x.2.1)
    (hx : x.2.1 ≤ (lexemes text).length) : (passageOf text x).start < (passageOf text y).start := by
  have hstart {z : Definition × Nat × Nat} (hz : (lexemes text).length - z.2.1 < (lexemes text).length) :
      (passageOf text z).start = (lexemes text)[(lexemes text).length - z.2.1].start := by
    simp [passageOf, hz]
  rw [hstart (by omega), hstart (by omega)]
  exact List.pairwise_iff_getElem.mp (starts_lexemesFrom 0 text.toList).1 _ _ _ _ (by omega)

/-- The definitions of a document start one behind the other. -/
theorem starts_of_parseDocument {text : String} {passages : List Passage}
    (h : parseDocument text = .ok passages) : passages.Pairwise (·.start < ·.start) := by
  obtain ⟨ds, rest, hread, rfl⟩ := parseDocument_eq_ok_iff.mp h
  obtain ⟨hpairs, hcounts⟩ := counts_of_unroll (namedTokens_tokens text) (unroll_of_document hread)
  have htotal : (Remaining.ofList (tokens text)).count = (lexemes text).length := List.length_map _
  rw [List.pairwise_map]
  refine hpairs.imp_of_mem fun {x y} hx hy hless => ?_
  exact start_passageOf_lt (hcounts y hy).1 hless (htotal ▸ (hcounts x hx).2)

end GraphDecl
