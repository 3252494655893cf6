import Mathlib.Data.List.Basic
import GraphDecl.Document.Parser.Operation
import GraphDecl.Proofs.Outcome

/-!
What readers take. A reader that takes some tokens takes them again wherever they stand, as long as the same
token follows; one that ends with a closing token takes them whatever follows. Both times it gives the same,
but for the places that it notes.
-/

namespace GraphDecl

/-- The tokens that stand at the end of a document only. -/
def Token.isEnd : Token → Bool
  | eof | invalid _ => true
  | _ => false

/-- A token that a reader can go on to. -/
def Token.isValid : Token → Bool
  | invalid _ => false
  | _ => true

/-- The last token is one for the end. -/
def Ended (ts : List Token) : Prop := ∃ t, ts.getLast? = some t ∧ t.isEnd = true

theorem Ended.ne_nil {ts : List Token} (h : Ended ts) : ts ≠ [] := by
  rintro rfl
  obtain ⟨t, ht, -⟩ := h
  cases ht

theorem Ended.of_append {taken rest : List Token} (h : Ended (taken ++ rest)) (hrest : rest ≠ []) :
    Ended rest := by
  obtain ⟨t, ht, hend⟩ := h
  exact ⟨t, by rwa [List.getLast?_append_of_ne_nil _ hrest] at ht, hend⟩

/-- Behind any other token the document goes on. -/
theorem Ended.exists_next {t : Token} {ts : List Token} (h : Ended (t :: ts)) (ht : t.isEnd = false) :
    ∃ u r, ts = u :: r := by
  cases ts with
  | nil =>
    obtain ⟨u, hu, hend⟩ := h
    obtain rfl : t = u := Option.some.inj hu
    rw [ht] at hend
    cases hend
  | cons u r => exact ⟨u, r, rfl⟩

theorem Remaining.eq_ofList (ts : Remaining) : ts = .ofList ts.tokens := by
  obtain ⟨tokens, count, rfl⟩ := ts
  rfl

namespace Parser

variable {α β γ δ : Type}

/-! ### Steps of readers -/

/-- Where one reader stops, the next one goes on. -/
theorem bind_eq_ok {p : Parser α} {f : α → Parser β} {ts : Remaining} {r : β × Remaining} :
    (p >>= f) ts = .ok r ↔ ∃ x us, p ts = .ok (x, us) ∧ f x us = .ok r := by
  show (p ts >>= fun r => f r.1 r.2) = .ok r ↔ _
  rw [bind_eq_ok_iff, Prod.exists]

theorem map_eq_ok {p : Parser α} {f : α → β} {ts rest : Remaining} {y : β} :
    (f <$> p) ts = .ok (y, rest) ↔ ∃ x, p ts = .ok (x, rest) ∧ f x = y := by
  show (p >>= fun x => pure (f x)) ts = .ok (y, rest) ↔ _
  rw [bind_eq_ok]
  constructor
  · rintro ⟨x, us, hx, h⟩
    cases h
    exact ⟨x, hx, rfl⟩
  · rintro ⟨x, hx, rfl⟩
    exact ⟨x, rest, hx, rfl⟩

/-! ### Readers that take the same tokens -/

/-- What is taken ends with the token `close`, if one is given. -/
def EndsWith (close : Option Punctuator) (taken : List Token) : Prop :=
  ∀ mark, close = some mark → taken.getLast? = some (.punctuator mark)

/-- A token that can stand in place of another behind what is taken: behind a closing token any valid one. -/
def Replaces (close : Option Punctuator) (t u : Token) : Prop :=
  u = t ∨ close.isSome = true ∧ u.isValid = true

/-- From tokens that start with `t`, the reader `q` takes what `p` takes, if these are less than `k` tokens,
also where other tokens stand behind them, and gives the same as `p`, seen through `view`. What is taken are
`n` tokens or more. A loop that may go `k` levels deep needs a token for each of them. -/
def AlikeAt (close : Option Punctuator) (t : Token) (n k : Nat) (p q : Parser α) (view : α → γ) : Prop :=
  ∀ ts x rest, Ended ts.tokens → ts.tokens.headD .eof = t → p ts = .ok (x, rest) →
    ∃ taken, ts.tokens = taken ++ rest.tokens ∧ rest.tokens ≠ [] ∧ n ≤ taken.length ∧
      EndsWith close taken ∧
      (taken.length < k → ∀ tail, tail ≠ [] →
        Replaces close (rest.tokens.headD .eof) (tail.headD .eof) →
        ∃ y, q (.ofList (taken ++ tail)) = .ok (y, .ofList tail) ∧ view y = view x)

/-- The same from all tokens. -/
def Alike (close : Option Punctuator) (n k : Nat) (p q : Parser α) (view : α → γ) : Prop :=
  ∀ t, AlikeAt close t n k p q view

variable {close : Option Punctuator} {t : Token} {n m k l : Nat} {p q : Parser α} {view : α → γ}
  {seen : β → δ}

theorem AlikeAt.weaken (h : AlikeAt close t n k p q view) (hm : m ≤ n) (hl : l ≤ k) :
    AlikeAt close t m l p q view := by
  intro ts x rest hts ht hx
  obtain ⟨taken, htaken, hrest, hn, hends, htail⟩ := h ts x rest hts ht hx
  exact ⟨taken, htaken, hrest, by omega, hends, fun hk => htail (by omega)⟩

theorem Alike.weaken (h : Alike close n k p q view) (hm : m ≤ n) (hl : l ≤ k) :
    Alike close m l p q view :=
  fun t => (h t).weaken hm hl

theorem AlikeAt.less (h : AlikeAt close t n k p q view) (hm : m ≤ n) : AlikeAt close t m k p q view :=
  h.weaken hm (Nat.le_refl k)

theorem Alike.less (h : Alike close n k p q view) (hm : m ≤ n) : Alike close m k p q view :=
  fun t => (h t).less hm

/-- What a closed reader takes it takes before the same token as well. -/
theorem Alike.opened (h : Alike close n k p q view) : Alike none n k p q view := by
  intro t ts x rest hts ht hx
  obtain ⟨taken, htaken, hrest, hn, -, htail⟩ := h t ts x rest hts ht hx
  refine ⟨taken, htaken, hrest, hn, nofun, ?_⟩
  intro hk tail hne hnext
  exact htail hk tail hne (.inl (hnext.resolve_right nofun))

/-- Without tokens to take, nothing is asked of the second reader. -/
theorem Alike.of_zero {q' : Parser α} (h : Alike close n k p q view) : Alike close n 0 p q' view := by
  intro t ts x rest hts ht hx
  obtain ⟨taken, htaken, hrest, hn, hends, -⟩ := h t ts x rest hts ht hx
  exact ⟨taken, htaken, hrest, hn, hends, nofun⟩

theorem alike_pure {x y : α} (h : view y = view x) : Alike none 0 k (pure x) (pure y) view := by
  intro t ts z rest hts ht hz
  cases hz
  refine ⟨[], rfl, hts.ne_nil, Nat.le_refl 0, nofun, ?_⟩
  exact fun _ tail _ _ => ⟨y, rfl, h⟩

/-- A reader that always stops takes nothing. -/
theorem alike_of_error (h : ∀ ts, ∃ e, p ts = .error e) : Alike close n k p q view := by
  intro t ts x rest _ _ hx
  obtain ⟨e, he⟩ := h ts
  rw [he] at hx
  cases hx

theorem alike_fail (fault : SyntaxFault) : Alike close n k (fail fault) q view :=
  alike_of_error fun ts => ⟨⟨ts.count, fault⟩, rfl⟩

theorem alike_failAt (place : Nat) (fault : SyntaxFault) : Alike close n k (failAt place fault) q view :=
  alike_of_error fun _ => ⟨⟨place, fault⟩, rfl⟩

theorem alike_unexpected : Alike close n k unexpected q view :=
  alike_of_error fun ts => ⟨⟨ts.count, .unexpected (ts.tokens.headD .eof)⟩, rfl⟩

/-- Where what is taken starts, the tokens go on as before. -/
theorem headD_append_of_replaces {taken rest tail : List Token} (hends : EndsWith close taken)
    (hnext : Replaces close (rest.headD .eof) (tail.headD .eof)) :
    (taken ++ tail).headD .eof = (taken ++ rest).headD .eof := by
  cases taken with
  | cons u taken => rfl
  | nil =>
    refine hnext.resolve_right ?_
    rintro ⟨hclose, -⟩
    obtain ⟨mark, hmark⟩ := Option.isSome_iff_exists.mp hclose
    cases hends mark hmark

/-- One reader after another; the tokens of both are taken. -/
theorem AlikeAt.bind_add {f g : α → Parser β} (hp : AlikeAt none t n k p q view)
    (hf : ∀ x y, view y = view x → Alike close m (k - n) (f x) (g y) seen) :
    AlikeAt close t (n + m) k (p >>= f) (q >>= g) seen := by
  intro ts z rest hts ht hz
  obtain ⟨x, us, hx, hz⟩ := bind_eq_ok.mp hz
  obtain ⟨first, hfirst, hus, hn, -, hfirsttail⟩ := hp ts x us hts ht hx
  rw [hfirst] at hts
  have hus' : Ended us.tokens := hts.of_append hus
  obtain ⟨second, hsecond, hrest, hm, hends, -⟩ := hf x x rfl _ us z rest hus' rfl hz
  refine ⟨first ++ second, by rw [hfirst, hsecond, List.append_assoc], hrest, by simp; omega, ?_, ?_⟩
  · intro mark hmark
    rw [List.getLast?_append, hends mark hmark]
    rfl
  · intro hk tail hne hnext
    rw [List.length_append] at hk
    have hgoes : (second ++ tail).headD .eof = us.tokens.headD .eof := by
      rw [hsecond]
      exact headD_append_of_replaces hends hnext
    obtain ⟨y, hy, hxy⟩ := hfirsttail (by omega) (second ++ tail) (by simp [hne]) (.inl hgoes)
    obtain ⟨second', hsecond', -, -, -, htail⟩ := hf x y hxy _ us z rest hus' rfl hz
    obtain rfl : second' = second := List.append_cancel_right (hsecond'.symm.trans hsecond)
    obtain ⟨w, hw, hzw⟩ := htail (by omega) tail hne hnext
    refine ⟨w, ?_, hzw⟩
    rw [List.append_assoc]
    exact bind_eq_ok.mpr ⟨y, _, hy, hw⟩

/-- The first reader takes what has to be taken. -/
theorem AlikeAt.bind {f g : α → Parser β} (hp : AlikeAt none t n k p q view)
    (hf : ∀ x y, view y = view x → Alike close 0 (k - n) (f x) (g y) seen) :
    AlikeAt close t n k (p >>= f) (q >>= g) seen :=
  hp.bind_add hf

/-- Readers that go on are alike if their first parts are and what follows these is. -/
theorem Alike.bind {f g : α → Parser β} (hp : Alike none n k p q view)
    (hf : ∀ x y, view y = view x → Alike close 0 (k - n) (f x) (g y) seen) :
    Alike close n k (p >>= f) (q >>= g) seen :=
  fun t => (hp t).bind hf

/-- Both readers take something. -/
theorem Alike.bind_add {f g : α → Parser β} (hp : Alike none n k p q view)
    (hf : ∀ x y, view y = view x → Alike close m (k - n) (f x) (g y) seen) :
    Alike close (n + m) k (p >>= f) (q >>= g) seen :=
  fun t => (hp t).bind_add hf

/-- The second reader takes what has to be taken. -/
theorem Alike.bind_right {f g : α → Parser β} (hp : Alike none 0 k p q view)
    (hf : ∀ x y, view y = view x → Alike close n k (f x) (g y) seen) :
    Alike close n k (p >>= f) (q >>= g) seen :=
  (hp.bind_add hf).less (Nat.le_add_left n 0)

/-- A result that is made from that of the last reader. -/
theorem AlikeAt.bind_pure {f g : α → β} (hp : AlikeAt close t n k p q view)
    (hf : ∀ x y, view y = view x → seen (g y) = seen (f x)) :
    AlikeAt close t n k (p >>= fun x => pure (f x)) (q >>= fun y => pure (g y)) seen := by
  intro ts z rest hts ht hz
  obtain ⟨x, us, hx, hz⟩ := bind_eq_ok.mp hz
  cases hz
  obtain ⟨taken, htaken, hrest, hn, hends, htail⟩ := hp ts x rest hts ht hx
  refine ⟨taken, htaken, hrest, hn, hends, ?_⟩
  intro hk tail hne hnext
  obtain ⟨y, hy, hxy⟩ := htail hk tail hne hnext
  exact ⟨g y, bind_eq_ok.mpr ⟨y, _, hy, rfl⟩, hf x y hxy⟩

/-- A result made of what has been read is alike if what it is made of is. -/
theorem Alike.bind_pure {f g : α → β} (hp : Alike close n k p q view)
    (hf : ∀ x y, view y = view x → seen (g y) = seen (f x)) :
    Alike close n k (p >>= fun x => pure (f x)) (q >>= fun y => pure (g y)) seen :=
  fun t => (hp t).bind_pure hf

theorem Alike.map {f : α → β} (hp : Alike close n k p q view)
    (hf : ∀ x y, view y = view x → seen (f y) = seen (f x)) :
    Alike close n k (f <$> p) (f <$> q) seen :=
  hp.bind_pure hf

/-- An item in front of the others. -/
theorem alike_cons {self self' : Parser (List α)} (hitem : Alike none 1 k p q view)
    (hself : Alike close 0 (k - 1) self self' (List.map view)) :
    Alike close 1 k (p >>= fun x => self >>= fun xs => pure (x :: xs))
      (q >>= fun x => self' >>= fun xs => pure (x :: xs)) (List.map view) := by
  apply hitem.bind
  intro x y hxy
  apply hself.bind_pure
  intro xs ys hxs
  rw [List.map_cons, List.map_cons, hxy, hxs]

theorem alike_ite {c : Prop} [Decidable c] {p' q' : Parser α} (hp : Alike close n k p q view)
    (hq : Alike close n k p' q' view) :
    Alike close n k (if c then p else p') (if c then q else q') view := by
  split
  · exact hp
  · exact hq

/-! ### Single tokens -/

theorem alike_remaining : Alike none 0 k remaining remaining fun _ => () := by
  intro t ts x rest hts _ hx
  cases hx
  refine ⟨[], rfl, hts.ne_nil, Nat.le_refl 0, nofun, ?_⟩
  exact fun _ tail _ _ => ⟨_, rfl, rfl⟩

/-- A reader that looks at the next token first. -/
theorem alike_peek {f g : Token → Parser α} (h : ∀ t, AlikeAt close t n k (f t) (g t) view) :
    Alike close n k (peek >>= f) (peek >>= g) view := by
  intro t ts x rest hts ht hx
  have hx : f (ts.tokens.headD .eof) ts = .ok (x, rest) := hx
  obtain ⟨taken, htaken, hrest, hn, hends, htail⟩ := h _ ts x rest hts rfl hx
  refine ⟨taken, htaken, hrest, hn, hends, ?_⟩
  intro hk tail hne hnext
  obtain ⟨y, hy, hxy⟩ := htail hk tail hne hnext
  refine ⟨y, ?_, hxy⟩
  show g ((taken ++ tail).headD .eof) (.ofList (taken ++ tail)) = _
  have hsame : (taken ++ tail).headD .eof = ts.tokens.headD .eof := by
    rw [htaken]
    exact headD_append_of_replaces hends hnext
  rw [hsame]
  exact hy

theorem checkNext_eq_ok {ts : Remaining} (h : (ts.tokens.headD .eof).isValid = true) :
    checkNext ts = .ok ((), ts) := by
  unfold checkNext
  split
  · next e r hts =>
    rw [hts] at h
    cases h
  · rfl

theorem advance_cons {t : Token} {tail : List Token} (hne : tail ≠ [])
    (h : (tail.headD .eof).isValid = true) : advance (.ofList (t :: tail)) = .ok ((), .ofList tail) := by
  cases tail with
  | nil => exact absurd rfl hne
  | cons u r => exact checkNext_eq_ok h

/-- Taking a token that is not for the end brings up another one. -/
theorem advance_eq_ok {ts rest : Remaining} (hts : Ended ts.tokens)
    (ht : (ts.tokens.headD .eof).isEnd = false) (h : advance ts = .ok ((), rest)) :
    ∃ u r, ts.tokens = ts.tokens.headD .eof :: u :: r ∧ u.isValid = true ∧ rest = .ofList (u :: r) := by
  rw [ts.eq_ofList] at h
  cases htokens : ts.tokens with
  | nil => exact absurd htokens hts.ne_nil
  | cons t ts' =>
    rw [htokens] at hts ht h
    obtain ⟨u, r, rfl⟩ := hts.exists_next ht
    have h : checkNext (.ofList (u :: r)) = .ok ((), rest) := h
    cases hu : u.isValid with
    | true =>
      have hcheck : checkNext (.ofList (u :: r)) = .ok ((), .ofList (u :: r)) := checkNext_eq_ok hu
      rw [hcheck] at h
      cases h
      exact ⟨u, r, rfl, hu, rfl⟩
    | false =>
      cases u with
      | invalid e => cases h
      | _ => cases hu

/-- Taking a token, the closing one if one is given. -/
theorem alikeAt_advance (ht : t.isEnd = false) (hclose : ∀ mark, close = some mark → t = .punctuator mark) :
    AlikeAt close t 1 k advance advance fun _ => () := by
  intro ts x rest hts hstart hx
  rw [← hstart] at ht
  obtain ⟨u, r, htokens, hu, rfl⟩ := advance_eq_ok hts ht hx
  rw [hstart] at htokens
  refine ⟨[t], htokens, by simp [Remaining.ofList], Nat.le_refl 1, ?_, ?_⟩
  · intro mark hmark
    rw [hclose mark hmark]
    rfl
  · intro _ tail hne hnext
    have hvalid : (tail.headD .eof).isValid = true := by
      obtain hnext | ⟨-, hvalid⟩ := hnext
      · rw [hnext]
        exact hu
      · exact hvalid
    exact ⟨(), advance_cons hne hvalid, rfl⟩

/-- Taking a token leaves a reader that starts behind it. -/
theorem alikeAt_advance_bind (ht : t.isEnd = false) (h : Alike close 0 k p q view) :
    AlikeAt close t 1 k (advance >>= fun _ => p) (advance >>= fun _ => q) view :=
  AlikeAt.bind (alikeAt_advance ht (by simp)) fun _ _ _ =>
    h.weaken (Nat.le_refl 0) (Nat.sub_le k 1)

theorem alike_nextIs {mark : Punctuator} {f g : Bool → Parser α}
    (h : ∀ b, Alike close n k (f b) (g b) view) :
    Alike close n k (nextIs mark >>= f) (nextIs mark >>= g) view :=
  alike_peek fun t => h (t == .punctuator mark) t

/-- A reader that takes a token if it comes next, and otherwise does something else. -/
theorem alike_takeIf {t : Token} {p' q' : Parser α} (htake : AlikeAt close t n k p q view)
    (helse : Alike close n k p' q' view) :
    Alike close n k (peek >>= fun u => if u == t then p else p')
      (peek >>= fun u => if u == t then q else q') view := by
  apply alike_peek
  intro u
  by_cases hu : u = t
  · rw [hu]
    simpa only [beq_self_eq_true, if_true] using htake
  · simpa only [beq_eq_false_iff_ne.mpr hu, Bool.false_eq_true, if_false] using helse u

/-- Taking a punctuator if it comes next, as a look at the next token. -/
theorem skip_bind (mark : Punctuator) (f : Bool → Parser α) :
    skip mark >>= f = peek >>= fun t =>
      if t == .punctuator mark then advance >>= fun _ => f true else f false := by
  simp only [skip, nextIs, bind_assoc, pure_bind]
  congr 1
  funext t
  split <;> simp only [bind_assoc, pure_bind]

theorem skipKeyword_bind (word : String) (f : Bool → Parser α) :
    skipKeyword word >>= f = peek >>= fun t =>
      if t == .name word then advance >>= fun _ => f true else f false := by
  simp only [skipKeyword, bind_assoc]
  congr 1
  funext t
  split <;> simp only [bind_assoc, pure_bind]

theorem alike_skip_bind {mark : Punctuator} {f g : Bool → Parser α}
    (htrue : Alike close 0 k (f true) (g true) view) (hfalse : Alike close n k (f false) (g false) view)
    (hn : n ≤ 1) : Alike close n k (skip mark >>= f) (skip mark >>= g) view := by
  rw [skip_bind, skip_bind]
  exact alike_takeIf ((alikeAt_advance_bind rfl htrue).less hn) hfalse

/-- The token that is skipped may be the last one. -/
theorem alike_skip_close {mark : Punctuator} {f g : Bool → Parser α} {x y : α} (hf : f true = pure x)
    (hg : g true = pure y) (hview : view y = view x)
    (hfalse : Alike (some mark) n k (f false) (g false) view) (hn : n ≤ 1) :
    Alike (some mark) n k (skip mark >>= f) (skip mark >>= g) view := by
  rw [skip_bind, skip_bind, hf, hg]
  refine alike_takeIf ?_ hfalse
  have htake : AlikeAt (some mark) (.punctuator mark) 1 k advance advance fun _ => () :=
    alikeAt_advance rfl fun _ h => congrArg Token.punctuator (Option.some.inj h)
  exact (htake.bind_pure fun _ _ _ => hview).less hn

theorem alike_skip (mark : Punctuator) : Alike none 0 k (skip mark) (skip mark) fun b => b := by
  rw [← bind_pure (skip mark)]
  exact alike_skip_bind (alike_pure rfl) (alike_pure rfl) (Nat.zero_le 1)

theorem alike_skipKeyword (word : String) :
    Alike none 0 k (skipKeyword word) (skipKeyword word) fun b => b := by
  rw [← bind_pure (skipKeyword word), skipKeyword_bind]
  exact alike_takeIf ((alikeAt_advance_bind rfl (alike_pure rfl)).less (Nat.zero_le 1)) (alike_pure rfl)

theorem alike_expect (mark : Punctuator) : Alike none 1 k (expect mark) (expect mark) fun _ => () := by
  refine alike_skip_bind (alike_pure rfl) ?_ (Nat.le_refl 1)
  exact alike_peek fun t => alike_fail _ t

theorem alike_expectName : Alike none 1 k expectName expectName fun n => n := by
  apply alike_peek
  intro t
  split
  · exact alikeAt_advance_bind rfl (alike_pure rfl)
  · exact alike_fail _ t

/-! ### Repetition -/

/-- Readers that use themselves are alike if they are for one level. -/
theorem alike_limited {f : Nat → Parser α → Parser α}
    (hf : ∀ (depth : Nat) (self : Parser α), (∀ k, Alike close n k self self view) →
      ∀ k, Alike close n k (f depth self) (f depth self) view) (depth : Nat) :
    ∀ k, Alike close n k (limited f depth) (limited f depth) view := by
  induction depth with
  | zero => exact fun k => alike_fail _
  | succ depth ih => exact hf depth _ ih

/-- Levels that suffice for what is taken. -/
theorem alike_unroll {f : Parser α → Parser α}
    (hf : ∀ (k : Nat) (self self' : Parser α), Alike close n k self self' view →
      Alike close n (k + 1) (f self) (f self') view) (depth k : Nat) :
    Alike close n k (unroll unexpected f depth) (unroll unexpected f k) view := by
  induction depth generalizing k with
  | zero => exact alike_unexpected
  | succ depth ih =>
    cases k with
    | zero => exact (hf 0 _ _ (ih 0)).of_zero
    | succ k => exact hf k _ _ (ih k)

/-- A reader that uses itself after taking a token. -/
theorem alike_nested {f : Parser α → Parser α}
    (hf : ∀ (k : Nat) (self self' : Parser α), Alike close n k self self' view →
      Alike close n (k + 1) (f self) (f self') view) (k : Nat) :
    Alike close n k (nested f) (nested f) view := by
  intro t ts x rest hts ht hx
  obtain ⟨taken, htaken, hrest, hn, hends, -⟩ := alike_unroll hf (ts.count + 1) 0 t ts x rest hts ht hx
  refine ⟨taken, htaken, hrest, hn, hends, ?_⟩
  intro _ tail hne hnext
  -- the second reader has a level for every token that it starts with, more than what is taken
  obtain ⟨taken', htaken', -, -, -, htail⟩ :=
    alike_unroll hf (ts.count + 1) ((taken ++ tail).length + 1) t ts x rest hts ht hx
  obtain rfl : taken' = taken := List.append_cancel_right (htaken'.symm.trans htaken)
  exact htail (by rw [List.length_append]; omega) tail hne hnext

section

variable {item : Parser α} (hitem : ∀ k, Alike none 1 k item item view)
include hitem

/-- Rows of items are read alike if items are. -/
theorem alike_itemsUntil (mark : Punctuator) (k : Nat) :
    Alike (some mark) 0 k (itemsUntil mark item) (itemsUntil mark item) (List.map view) := by
  apply alike_nested
  intro k self self' hself
  refine alike_skip_close rfl rfl rfl ?_ (Nat.zero_le 1)
  exact (alike_cons (hitem (k + 1)) hself).less (Nat.zero_le 1)

theorem alike_anyBetween (first last : Punctuator) (k : Nat) :
    Alike (some last) 1 k (anyBetween first last item) (anyBetween first last item) (List.map view) :=
  (alike_expect first).bind fun _ _ _ => alike_itemsUntil hitem last _

theorem alike_manyBetween (first last : Punctuator) (k : Nat) :
    Alike (some last) 2 k (manyBetween first last item) (manyBetween first last item) (List.map view) := by
  refine (alike_expect first).bind_add (m := 1) fun _ _ _ => ?_
  exact alike_cons (hitem _) (alike_itemsUntil hitem last _)

theorem alike_optionalBetween (first last : Punctuator) (k : Nat) :
    Alike none 0 k (optionalBetween first last item) (optionalBetween first last item) (List.map view) := by
  apply alike_nextIs
  intro b
  apply alike_ite
  · exact (alike_manyBetween hitem first last k).opened.less (Nat.zero_le 2)
  · exact alike_pure rfl

theorem alike_whileNext (mark : Punctuator) (k : Nat) :
    Alike none 0 k (whileNext mark item) (whileNext mark item) (List.map view) := by
  apply alike_nested
  intro k self self' hself
  apply alike_nextIs
  intro b
  apply alike_ite
  · exact (alike_cons (hitem (k + 1)) hself).less (Nat.zero_le 1)
  · exact alike_pure rfl

end

end Parser

end GraphDecl
