import GraphDecl.Document.Parser.Value
import GraphDecl.Proofs.Document.Names

/-!
What readers give from tokens whose names are names. A reader takes tokens off the list and adds none, so
that the names in what it gives are names of the document.
-/

namespace GraphDecl.Parser

variable {α β : Type}

/-- From tokens whose names are names, the reader gives a result with `Q` and leaves the last ones of these
tokens. -/
def Gives (p : Parser α) (Q : α → Prop) : Prop :=
  ∀ ts x rest, NamedTokens ts.tokens → p ts = .ok (x, rest) → Q x ∧ rest.tokens <:+ ts.tokens

/-! ### Rules -/

theorem Gives.weaken {p : Parser α} {Q R : α → Prop} (hp : p.Gives Q) (h : ∀ x, Q x → R x) :
    p.Gives R := by
  intro ts x rest hts hx
  obtain ⟨hq, hrest⟩ := hp ts x rest hts hx
  exact ⟨h x hq, hrest⟩

theorem gives_pure {Q : α → Prop} {x : α} (h : Q x) : Gives (pure x) Q := by
  intro ts y rest hts hy
  cases hy
  exact ⟨h, List.suffix_rfl⟩

/-- What a reader gives that goes on with another one. -/
theorem Gives.bind {p : Parser α} {f : α → Parser β} {Q : α → Prop} {R : β → Prop}
    (hp : p.Gives Q) (hf : ∀ x, Q x → (f x).Gives R) : Gives (p >>= f) R := by
  intro ts y rest hts hy
  obtain ⟨⟨x, us⟩, hx, hy⟩ := bind_eq_ok_iff.mp hy
  obtain ⟨hq, hus⟩ := hp ts x us hts hx
  obtain ⟨hr, hrest⟩ := hf x hq us y rest (hts.of_suffix hus) hy
  exact ⟨hr, hrest.trans hus⟩

theorem Gives.map {p : Parser α} {f : α → β} {Q : α → Prop} {R : β → Prop}
    (hp : p.Gives Q) (hf : ∀ x, Q x → R (f x)) : Gives (f <$> p) R :=
  hp.bind fun x hx => gives_pure (hf x hx)

theorem gives_ite {c : Prop} [Decidable c] {p q : Parser α} {Q : α → Prop}
    (hp : p.Gives Q) (hq : q.Gives Q) : Gives (if c then p else q) Q := by
  split
  · exact hp
  · exact hq

/-- A reader that always stops gives nothing. -/
theorem gives_of_error {p : Parser α} (h : ∀ ts, ∃ e, p ts = .error e) (Q : α → Prop) : p.Gives Q := by
  intro ts x rest _ hx
  obtain ⟨e, he⟩ := h ts
  rw [he] at hx
  cases hx

theorem gives_fail (fault : SyntaxFault) (Q : α → Prop) : Gives (fail fault) Q :=
  gives_of_error (fun ts => ⟨⟨ts.count, fault⟩, rfl⟩) Q

theorem gives_failAt (place : Nat) (fault : SyntaxFault) (Q : α → Prop) :
    Gives (failAt place fault) Q :=
  gives_of_error (fun _ => ⟨⟨place, fault⟩, rfl⟩) Q

theorem gives_unexpected (Q : α → Prop) : Gives unexpected Q :=
  gives_of_error (fun ts => ⟨⟨ts.count, .unexpected (ts.tokens.headD .eof)⟩, rfl⟩) Q

/-! ### Single tokens -/

theorem gives_remaining : remaining.Gives fun _ => True := by
  intro ts x rest hts hx
  cases hx
  exact ⟨trivial, List.suffix_rfl⟩

/-- A token that is a name has the text of a name. -/
theorem gives_peek : peek.Gives fun t => ∀ n, t = .name n → isName n = true := by
  intro ts t rest hts ht
  cases ht
  refine ⟨?_, List.suffix_rfl⟩
  intro n hn
  cases htokens : ts.tokens with
  | nil => simp [htokens] at hn
  | cons u us =>
    rw [htokens, List.headD_cons] at hn
    exact hts n (by simp [htokens, hn])

theorem gives_checkNext : checkNext.Gives fun _ => True := by
  intro ts x rest hts hx
  unfold checkNext at hx
  split at hx
  · cases hx
  · cases hx
    exact ⟨trivial, List.suffix_rfl⟩

theorem gives_advance : advance.Gives fun _ => True := by
  intro ts x rest hts hx
  unfold advance at hx
  split at hx
  · next u t r n hcount =>
    have hnext : t :: r <:+ u :: t :: r := List.suffix_cons u (t :: r)
    obtain ⟨-, hrest⟩ := gives_checkNext _ x rest (hts.of_suffix hnext) hx
    exact ⟨trivial, hrest.trans hnext⟩
  · cases hx
    exact ⟨trivial, List.suffix_rfl⟩

theorem gives_peekSecond : peekSecond.Gives fun t => ∀ n, t = .name n → isName n = true := by
  intro ts t rest hts ht
  unfold peekSecond at ht
  split at ht
  · cases ht
  · next u v us hv htokens =>
    cases ht
    exact ⟨fun n hn => hts n (by simp [htokens, hn]), List.suffix_rfl⟩
  · cases ht
    exact ⟨by simp, List.suffix_rfl⟩

theorem gives_nextIs (p : Punctuator) : (nextIs p).Gives fun _ => True :=
  gives_peek.bind fun _ _ => gives_pure trivial

theorem gives_skip (p : Punctuator) : (skip p).Gives fun _ => True :=
  (gives_nextIs p).bind fun _ _ =>
    gives_ite (gives_advance.bind fun _ _ => gives_pure trivial) (gives_pure trivial)

theorem gives_expect (p : Punctuator) : (expect p).Gives fun _ => True :=
  (gives_skip p).bind fun _ _ =>
    gives_ite (gives_pure trivial) (gives_peek.bind fun _ _ => gives_fail _ _)

theorem gives_expectName : expectName.Gives fun n => isName n = true := by
  apply gives_peek.bind
  intro t ht
  split
  · next n => exact gives_advance.bind fun _ _ => gives_pure (ht n rfl)
  · exact gives_fail _ _

theorem gives_skipKeyword (word : String) : (skipKeyword word).Gives fun _ => True :=
  gives_peek.bind fun _ _ =>
    gives_ite (gives_advance.bind fun _ _ => gives_pure trivial) (gives_pure trivial)

theorem gives_expectKeyword (word : String) : (expectKeyword word).Gives fun _ => True :=
  (gives_skipKeyword word).bind fun _ _ =>
    gives_ite (gives_pure trivial) (gives_peek.bind fun _ _ => gives_fail _ _)

/-! ### Repetition -/

theorem gives_unroll {bottom : Parser α} {f : Parser α → Parser α} {Q : α → Prop}
    (hbottom : bottom.Gives Q) (hf : ∀ self : Parser α, self.Gives Q → (f self).Gives Q)
    (depth : Nat) : (unroll bottom f depth).Gives Q := by
  induction depth with
  | zero => exact hbottom
  | succ depth ih => exact hf _ ih

/-- A reader that uses itself gives what it gives if it may rely on it for the levels below. -/
theorem gives_nested {f : Parser α → Parser α} {Q : α → Prop}
    (hf : ∀ self : Parser α, self.Gives Q → (f self).Gives Q) : (nested f).Gives Q := by
  intro ts
  exact gives_unroll (gives_unexpected Q) hf (ts.count + 1) ts

theorem gives_limited {f : Nat → Parser α → Parser α} {Q : α → Prop}
    (hf : ∀ (depth : Nat) (self : Parser α), self.Gives Q → (f depth self).Gives Q) (depth : Nat) :
    (limited f depth).Gives Q := by
  induction depth with
  | zero => exact gives_fail _ Q
  | succ depth ih => exact hf depth _ ih

section

variable {item : Parser α} {Q : α → Prop} (hitem : item.Gives Q)
include hitem

theorem gives_itemsUntil (close : Punctuator) :
    (itemsUntil close item).Gives fun xs => ∀ x ∈ xs, Q x := by
  apply gives_nested
  intro self hself
  apply (gives_skip close).bind
  intro _ _
  apply gives_ite
  · exact gives_pure (by simp)
  · apply hitem.bind
    intro x hx
    apply hself.bind
    intro xs hxs
    exact gives_pure (List.forall_mem_cons.mpr ⟨hx, hxs⟩)

theorem gives_anyBetween (first close : Punctuator) :
    (anyBetween first close item).Gives fun xs => ∀ x ∈ xs, Q x :=
  (gives_expect first).bind fun _ _ => gives_itemsUntil hitem close

theorem gives_manyBetween (first close : Punctuator) :
    (manyBetween first close item).Gives fun xs => ∀ x ∈ xs, Q x := by
  apply (gives_expect first).bind
  intro _ _
  apply hitem.bind
  intro x hx
  apply (gives_itemsUntil hitem close).bind
  intro xs hxs
  exact gives_pure (List.forall_mem_cons.mpr ⟨hx, hxs⟩)

theorem gives_optionalBetween (first close : Punctuator) :
    (optionalBetween first close item).Gives fun xs => ∀ x ∈ xs, Q x :=
  (gives_nextIs first).bind fun _ _ =>
    gives_ite (gives_manyBetween hitem first close) (gives_pure (by simp))

theorem gives_separatedBy (mark : Punctuator) :
    (separatedBy mark item).Gives fun xs => ∀ x ∈ xs, Q x := by
  apply (gives_skip mark).bind
  intro _ _
  apply gives_nested
  intro self hself
  apply hitem.bind
  intro x hx
  apply (gives_skip mark).bind
  intro _ _
  apply gives_ite
  · exact hself.bind fun xs hxs => gives_pure (List.forall_mem_cons.mpr ⟨hx, hxs⟩)
  · exact gives_pure (by simpa using hx)

theorem gives_whileNext (mark : Punctuator) :
    (whileNext mark item).Gives fun xs => ∀ x ∈ xs, Q x := by
  apply gives_nested
  intro self hself
  apply (gives_nextIs mark).bind
  intro _ _
  apply gives_ite
  · apply hitem.bind
    intro x hx
    exact hself.bind fun xs hxs => gives_pure (List.forall_mem_cons.mpr ⟨hx, hxs⟩)
  · exact gives_pure (by simp)

end

/-! ### Values, directives and type references -/

theorem gives_description : description.Gives fun _ => True := by
  apply gives_peek.bind
  intro t _
  split
  · exact gives_advance.bind fun _ _ => gives_pure trivial
  · exact gives_advance.bind fun _ _ => gives_pure trivial
  · exact gives_pure trivial

theorem gives_typeRef : typeRef.Gives fun t => isName t.name = true := by
  apply gives_limited
  intro _ self hself
  apply (gives_skip .bracketL).bind
  intro _ _
  apply gives_ite
  · apply hself.bind
    intro t ht
    apply (gives_expect .bracketR).bind
    intro _ _
    exact (gives_skip .bang).bind fun _ _ => gives_pure ht
  · apply gives_expectName.bind
    intro n hn
    exact (gives_skip .bang).bind fun _ _ => gives_pure hn

theorem gives_variableName : variableName.Gives fun n => isName n = true :=
  (gives_expect .dollar).bind fun _ _ => gives_expectName

theorem gives_valueWith (constant : Bool) {compound : Parser Value}
    (hcompound : compound.Gives fun _ => True) :
    (valueWith constant compound).Gives fun _ => True := by
  apply gives_peek.bind
  intro t _
  split
  · exact hcompound
  · exact hcompound
  · apply gives_ite
    · apply gives_remaining.bind
      intro place _
      apply gives_advance.bind
      intro _ _
      apply gives_peek.bind
      intro u _
      split <;> exact gives_failAt _ _ _
    · exact gives_variableName.bind fun _ _ => gives_pure trivial
  all_goals first | exact gives_unexpected _ | exact gives_advance.bind fun _ _ => gives_pure trivial

theorem gives_compoundValue (depth : Nat) (constant : Bool) :
    (compoundValue depth constant).Gives fun _ => True := by
  apply gives_limited
  intro _ self hself
  apply (gives_nextIs .bracketL).bind
  intro _ _
  apply gives_ite
  · apply (gives_anyBetween (gives_valueWith constant hself) .bracketL .bracketR).bind
    exact fun _ _ => gives_pure trivial
  · refine Gives.bind (gives_anyBetween (Q := fun _ => True) ?_ .braceL .braceR) ?_
    · apply gives_expectName.bind
      intro n _
      apply (gives_expect .colon).bind
      intro _ _
      exact (gives_valueWith constant hself).bind fun _ _ => gives_pure trivial
    · exact fun _ _ => gives_pure trivial

theorem gives_value (depth : Nat) (constant : Bool) : (value depth constant).Gives fun _ => True :=
  gives_valueWith constant (gives_compoundValue depth constant)

theorem gives_defaultValue : defaultValue.Gives fun _ => True :=
  (gives_skip .equals).bind fun _ _ =>
    gives_ite ((gives_value maxDepth true).map fun _ _ => trivial) (gives_pure trivial)

theorem gives_argument (depth : Nat) (constant : Bool) :
    (argument depth constant).Gives fun _ => True := by
  apply gives_expectName.bind
  intro n _
  apply (gives_expect .colon).bind
  intro _ _
  apply gives_remaining.bind
  intro place _
  exact (gives_value depth constant).bind fun _ _ => gives_pure trivial

theorem gives_arguments (depth : Nat) (constant : Bool) :
    (arguments depth constant).Gives fun _ => True :=
  (gives_optionalBetween (gives_argument depth constant) .parenL .parenR).weaken fun _ _ => trivial

theorem gives_directives (depth : Nat) (constant : Bool) :
    (directives depth constant).Gives fun _ => True := by
  refine (gives_whileNext (Q := fun _ => True) ?_ .atSign).weaken fun _ _ => trivial
  apply gives_remaining.bind
  intro place _
  apply (gives_expect .atSign).bind
  intro _ _
  apply gives_expectName.bind
  intro n _
  exact (gives_arguments depth constant).bind fun _ _ => gives_pure trivial

theorem gives_operationKind : operationKind.Gives fun _ => True := by
  apply gives_remaining.bind
  intro place _
  apply gives_expectName.bind
  intro n _
  split
  · exact gives_pure trivial
  · exact gives_failAt _ _ _

end GraphDecl.Parser
