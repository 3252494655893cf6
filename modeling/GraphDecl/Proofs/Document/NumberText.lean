import GraphDecl.Document.Lexer
import GraphDecl.Proofs.Outcome

/-!
The characters of a number. How many characters a number takes depends on these characters and on the one
behind them, whatever follows further on.
-/

namespace GraphDecl.Lexer

/-! ### Runs of characters -/

/-- A run of characters ends where it did if the same character follows it. -/
theorem takeWhile_append_of_head? {p : Char → Bool} {cs z : List Char}
    (h : z.head? = (cs.dropWhile p).head?) : (cs.takeWhile p ++ z).takeWhile p = cs.takeWhile p := by
  induction cs with
  | nil =>
    have hz : z = [] := by simpa using h
    simp [hz]
  | cons c cs ih =>
    cases hc : p c with
    | true =>
      rw [List.dropWhile_cons_of_pos hc] at h
      simp [hc, ih h]
    | false =>
      have hneg : ¬ p c = true := by simp [hc]
      rw [List.dropWhile_cons_of_neg hneg, List.head?_cons] at h
      obtain ⟨t, rfl⟩ := List.head?_eq_some_iff.mp h
      simp [hc]

/-- The first character behind a part of a text is that of the next part, or of what follows it. -/
theorem head?_append_congr {z z' : List Char} (h : z'.head? = z.head?) (w : List Char) :
    (w ++ z').head? = (w ++ z).head? := by
  rw [List.head?_append, List.head?_append, h]

/-! ### Numbers -/

/-- `f` takes a part of a text from its front; how long it is depends on it and the character behind it. -/
def TakesFront (f : List Char → Except Fault Nat) : Prop :=
  ∀ cs n, f cs = .ok n → ∃ w z, cs = w ++ z ∧ w.length = n ∧
    ∀ z', z'.head? = z.head? → f (w ++ z') = .ok n

/-- Digits are read as far as they go, and there has to be one. -/
theorem digits_eq_ok_iff {offset n : Nat} {cs : List Char} :
    digits offset cs = .ok n ↔ (cs.takeWhile Char.isDigit).length = n ∧ 0 < n := by
  unfold digits
  split
  · next h =>
    rw [h]
    constructor
    · intro hn
      cases hn
    · rintro ⟨rfl, hpos⟩
      omega
  · next m h =>
    rw [h, Except.ok.injEq]
    omega

/-- How many digits there are depends on nothing behind the character that ends them. -/
theorem takesFront_digits (offset : Nat) : TakesFront (digits offset) := by
  intro cs n h
  obtain ⟨hlength, hpos⟩ := digits_eq_ok_iff.mp h
  refine ⟨_, _, List.takeWhile_append_dropWhile.symm, hlength, ?_⟩
  intro z' hz'
  rw [digits_eq_ok_iff, takeWhile_append_of_head? hz']
  exact ⟨hlength, hpos⟩

theorem pos_of_integerWidth {offset n : Nat} {cs : List Char} (h : integerWidth offset cs = .ok n) :
    0 < n := by
  unfold integerWidth at h
  split at h
  · split at h
    · cases h
    · cases h
      omega
  · exact (digits_eq_ok_iff.mp h).2

/-- Only a zero in front is more than the first of the digits. -/
theorem integerWidth_of_ne {c : Char} (h : c ≠ '0') (offset : Nat) (cs : List Char) :
    integerWidth offset (c :: cs) = digits offset (c :: cs) := by
  unfold integerWidth
  split
  · next heq =>
    cases heq
    exact absurd rfl h
  · rfl

/-- The width of an integer depends on no more than it and the character behind it. -/
theorem takesFront_integerWidth (offset : Nat) : TakesFront (integerWidth offset) := by
  intro cs n h
  match cs, h with
  | [], h => cases h
  | [c], h =>
    -- the text ends with this digit, and nothing may follow it
    have hdigits : digits offset [c] = .ok n := by simpa [integerWidth] using h
    obtain ⟨hlength, hpos⟩ := digits_eq_ok_iff.mp hdigits
    have hn : n = 1 := by
      have hle := (List.takeWhile_sublist (l := [c]) Char.isDigit).length_le
      simp only [List.length_singleton] at hle
      omega
    refine ⟨[c], [], rfl, hn.symm, ?_⟩
    intro z' hz'
    have hnil : z' = [] := by simpa using hz'
    subst hnil
    exact h
  | c :: d :: r, h =>
    by_cases hc : c = '0'
    · subst hc
      have hd : d.isDigit = false ∧ n = 1 := by
        rw [integerWidth] at h
        split at h
        · cases h
        · next hd => exact ⟨by simpa using hd, (Except.ok.inj h).symm⟩
      obtain ⟨hd, rfl⟩ := hd
      refine ⟨['0'], d :: r, rfl, rfl, ?_⟩
      intro z' hz'
      obtain ⟨t, rfl⟩ := List.head?_eq_some_iff.mp hz'
      simp [integerWidth, hd]
    · rw [integerWidth_of_ne hc] at h
      obtain ⟨w, z, hcs, hlength, hw⟩ := takesFront_digits offset _ n h
      have hpos := (digits_eq_ok_iff.mp h).2
      cases w with
      | nil => simp at hlength; omega
      | cons b w =>
        obtain ⟨rfl, -⟩ := List.cons.inj hcs
        refine ⟨c :: w, z, hcs, hlength, ?_⟩
        intro z' hz'
        rw [List.cons_append, integerWidth_of_ne hc]
        exact hw z' hz'

theorem fractionWidth_of_ne {c : Char} (h : c ≠ '.') (offset : Nat) (cs : List Char) :
    fractionWidth offset (c :: cs) = .ok 0 := by
  unfold fractionWidth
  split
  · next heq =>
    cases heq
    exact absurd rfl h
  · rfl

/-- Where nothing is taken, only the next character counts. -/
theorem takesNothing {f : List Char → Except Fault Nat} {cs : List Char} (hnil : f [] = .ok 0)
    (hcons : ∀ c r, cs = c :: r → ∀ r', f (c :: r') = .ok 0) :
    ∃ w z, cs = w ++ z ∧ w.length = 0 ∧ ∀ z', z'.head? = z.head? → f (w ++ z') = .ok 0 := by
  refine ⟨[], cs, rfl, rfl, ?_⟩
  intro z' hz'
  cases cs with
  | nil =>
    have hz : z' = [] := by simpa using hz'
    rw [hz]
    exact hnil
  | cons c r =>
    obtain ⟨t, rfl⟩ := List.head?_eq_some_iff.mp hz'
    exact hcons c r rfl t

theorem takesFront_fractionWidth (offset : Nat) : TakesFront (fractionWidth offset) := by
  intro cs n h
  match cs, h with
  | [], h =>
    cases h
    exact takesNothing rfl (by simp)
  | c :: r, h =>
    by_cases hc : c = '.'
    · subst hc
      obtain ⟨m, hm, rfl⟩ := map_eq_ok_iff.mp h
      obtain ⟨w, z, rfl, rfl, hw⟩ := takesFront_digits (offset + 1) r m hm
      refine ⟨'.' :: w, z, rfl, rfl, ?_⟩
      intro z' hz'
      exact map_eq_ok_iff.mpr ⟨_, hw z' hz', rfl⟩
    · rw [fractionWidth_of_ne hc] at h
      cases h
      exact takesNothing rfl fun d _ hd t => by
        rw [← (List.cons.inj hd).1]
        exact fractionWidth_of_ne hc offset t

theorem exponentWidth_of_not {c : Char} (h : ¬ (c = 'e' ∨ c = 'E')) (offset : Nat) (cs : List Char) :
    exponentWidth offset (c :: cs) = .ok 0 := by
  cases cs <;> rw [exponentWidth, if_neg h]

theorem takesFront_exponentWidth (offset : Nat) : TakesFront (exponentWidth offset) := by
  intro cs n h
  match cs, h with
  | [], h =>
    cases h
    exact takesNothing rfl (by simp)
  | c :: r, h =>
    by_cases hc : c = 'e' ∨ c = 'E'
    · match r, h with
      | [], h =>
        rw [exponentWidth, if_pos hc] at h
        cases h
      | s :: t, h =>
        rw [exponentWidth, if_pos hc] at h
        by_cases hs : s = '+' ∨ s = '-'
        · simp only [if_pos hs] at h
          obtain ⟨m, hm, rfl⟩ := map_eq_ok_iff.mp h
          obtain ⟨w, z, rfl, rfl, hw⟩ := takesFront_digits (offset + 2) t m hm
          refine ⟨c :: s :: w, z, rfl, rfl, ?_⟩
          intro z' hz'
          simp only [List.cons_append, exponentWidth, if_pos hc, if_pos hs]
          exact map_eq_ok_iff.mpr ⟨_, hw z' hz', rfl⟩
        · simp only [if_neg hs] at h
          obtain ⟨m, hm, rfl⟩ := map_eq_ok_iff.mp h
          obtain ⟨w, z, hst, rfl, hw⟩ := takesFront_digits (offset + 1) _ m hm
          have hpos := (digits_eq_ok_iff.mp hm).2
          cases w with
          | nil => simp at hpos
          | cons b w =>
            obtain ⟨rfl, rfl⟩ := List.cons.inj hst
            refine ⟨c :: s :: w, z, rfl, rfl, ?_⟩
            intro z' hz'
            simp only [List.cons_append, exponentWidth, if_pos hc, if_neg hs]
            exact map_eq_ok_iff.mpr ⟨_, hw z' hz', rfl⟩
    · rw [exponentWidth_of_not hc] at h
      cases h
      exact takesNothing rfl fun d _ hd t => by
        rw [← (List.cons.inj hd).1]
        exact exponentWidth_of_not hc offset t

def signWidth (cs : List Char) : Nat := if cs.head? = some '-' then 1 else 0

/-- A number consists of its sign, its integer part, its fraction and its exponent, and of nothing behind
them that could be part of a number or a name. -/
theorem numberWidth_eq_ok_iff {cs : List Char} {isFloat : Bool} {k : Nat} :
    numberWidth cs = .ok (isFloat, k) ↔ ∃ whole fraction exponent,
      integerWidth (signWidth cs) (cs.drop (signWidth cs)) = .ok whole ∧
      fractionWidth (signWidth cs + whole) (cs.drop (signWidth cs + whole)) = .ok fraction ∧
      exponentWidth (signWidth cs + whole + fraction) (cs.drop (signWidth cs + whole + fraction)) =
        .ok exponent ∧
      k = signWidth cs + whole + fraction + exponent ∧ isFloat = (fraction + exponent != 0) ∧
      ∀ c ∈ (cs.drop k).head?, ¬ (c = '.' ∨ isNameStart c = true) := by
  constructor
  · intro h
    obtain ⟨whole, hwhole, h⟩ := bind_eq_ok_iff.mp h
    obtain ⟨fraction, hfraction, h⟩ := bind_eq_ok_iff.mp h
    obtain ⟨exponent, hexponent, h⟩ := bind_eq_ok_iff.mp h
    refine ⟨whole, fraction, exponent, hwhole, hfraction, hexponent, ?_⟩
    dsimp only at h
    split at h
    · next c tail hdrop =>
      split at h
      · cases h
      · next hc =>
        cases h
        refine ⟨rfl, rfl, ?_⟩
        simpa [signWidth, hdrop] using hc
    · next hdrop =>
      cases h
      refine ⟨rfl, rfl, ?_⟩
      simp [hdrop]
  · rintro ⟨whole, fraction, exponent, hwhole, hfraction, hexponent, rfl, rfl, hfollow⟩
    refine bind_eq_ok_iff.mpr ⟨whole, hwhole, ?_⟩
    refine bind_eq_ok_iff.mpr ⟨fraction, hfraction, ?_⟩
    refine bind_eq_ok_iff.mpr ⟨exponent, hexponent, ?_⟩
    dsimp only
    split
    · next c tail hdrop =>
      have hc : ¬ (c = '.' ∨ isNameStart c = true) := hfollow c (by simp [signWidth, hdrop])
      rw [if_neg hc]
      rfl
    · rfl

/-- A number is read in the same way whatever comes behind, as long as the next character is the
same. -/
theorem numberWidth_append {cs : List Char} {isFloat : Bool} {k : Nat}
    (h : numberWidth cs = .ok (isFloat, k)) :
    ∃ w z, cs = w ++ z ∧ w.length = k ∧ 0 < k ∧
      ∀ z', z'.head? = z.head? → numberWidth (w ++ z') = .ok (isFloat, k) := by
  obtain ⟨whole, fraction, exponent, hwhole, hfraction, hexponent, rfl, rfl, hfollow⟩ :=
    numberWidth_eq_ok_iff.mp h
  have hpos := pos_of_integerWidth hwhole
  obtain ⟨w₁, z₁, h₁, rfl, hw₁⟩ := takesFront_integerWidth _ _ _ hwhole
  obtain ⟨w₂, z₂, h₂, rfl, hw₂⟩ := takesFront_fractionWidth _ _ _ hfraction
  obtain ⟨w₃, z₃, h₃, rfl, hw₃⟩ := takesFront_exponentWidth _ _ _ hexponent
  have hz₁ : z₁ = w₂ ++ z₂ := by
    rw [← h₂, ← List.drop_drop, h₁, List.drop_left]
  have hz₂ : z₂ = w₃ ++ z₃ := by
    rw [← h₃, ← List.drop_drop, h₂, List.drop_left]
  have hsign : (cs.take (signWidth cs)).length = signWidth cs := by
    have hlength := congrArg List.length h₁
    simp only [List.length_drop, List.length_append] at hlength
    rw [List.length_take]
    omega
  generalize hw₀ : cs.take (signWidth cs) = w₀ at hsign
  have hcs : cs = w₀ ++ (w₁ ++ (w₂ ++ (w₃ ++ z₃))) := by
    rw [← hz₂, ← hz₁, ← h₁, ← hw₀, List.take_append_drop]
  refine ⟨w₀ ++ (w₁ ++ (w₂ ++ w₃)), z₃, by simp [hcs], by simp [hsign]; omega, by omega, ?_⟩
  intro z' hz'
  have hsame : signWidth (w₀ ++ (w₁ ++ (w₂ ++ w₃)) ++ z') = signWidth cs := by
    have hhead : (w₀ ++ (w₁ ++ (w₂ ++ w₃)) ++ z').head? = (w₀ ++ (w₁ ++ (w₂ ++ w₃)) ++ z₃).head? :=
      head?_append_congr hz' _
    simp only [List.append_assoc] at hhead ⊢
    rw [signWidth, hhead, ← hcs, signWidth]
  rw [numberWidth_eq_ok_iff, hsame]
  have hdrop₀ : (w₀ ++ (w₁ ++ (w₂ ++ w₃)) ++ z').drop (signWidth cs) = w₁ ++ (w₂ ++ (w₃ ++ z')) := by
    simp [← hsign]
  have hdrop₁ : (w₀ ++ (w₁ ++ (w₂ ++ w₃)) ++ z').drop (signWidth cs + w₁.length) = w₂ ++ (w₃ ++ z') := by
    rw [← List.drop_drop, hdrop₀, List.drop_left]
  have hdrop₂ : (w₀ ++ (w₁ ++ (w₂ ++ w₃)) ++ z').drop (signWidth cs + w₁.length + w₂.length) = w₃ ++ z' := by
    rw [← List.drop_drop, hdrop₁, List.drop_left]
  have hdrop₃ : (w₀ ++ (w₁ ++ (w₂ ++ w₃)) ++ z').drop
      (signWidth cs + w₁.length + w₂.length + w₃.length) = z' := by
    rw [← List.drop_drop, hdrop₂, List.drop_left]
  refine ⟨w₁.length, w₂.length, w₃.length, ?_, ?_, ?_, rfl, rfl, ?_⟩
  · rw [hdrop₀]
    apply hw₁
    rw [hz₁, hz₂]
    exact head?_append_congr (head?_append_congr hz' w₃) w₂
  · rw [hdrop₁]
    apply hw₂
    rw [hz₂]
    exact head?_append_congr hz' w₃
  · rw [hdrop₂]
    exact hw₃ z' hz'
  · rw [hdrop₃, hz']
    have hend : cs.drop (signWidth cs + w₁.length + w₂.length + w₃.length) = z₃ := by
      rw [← List.drop_drop, h₃, List.drop_left]
    rwa [hend] at hfollow

end GraphDecl.Lexer
