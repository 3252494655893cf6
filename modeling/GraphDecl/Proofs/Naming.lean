import GraphDecl.Naming
import GraphDecl.Proofs.Document.Names
import GraphDecl.Proofs.Text.Pieces

/-!
Names in camel case. The words of a name are joined with their first characters in upper case, as long as single
underscores stand between them. Of two underscores side by side the second one stays, since it is taken for the
first character of a word.
-/

namespace GraphDecl

/-! ### Characters of names -/

theorem isDecimalDigit_of_isDigit {c : Char} (h : c.isDigit = true) : Text.isDecimalDigit c = true := by
  simp only [Char.isDigit, Bool.and_eq_true, decide_eq_true_eq, ge_iff_le, UInt32.le_iff_toNat_le] at h
  have hrange : ('0'.toNat ≤ c.toNat && c.toNat < '0'.toNat + 10) = true := by
    rw [Bool.and_eq_true, decide_eq_true_eq, decide_eq_true_eq]
    exact ⟨h.1, Nat.lt_succ_of_le h.2⟩
  rw [Text.isDecimalDigit, Text.digitValue?, Option.isSome_map, List.find?_isSome]
  exact ⟨'0'.toNat, List.mem_cons_self, hrange⟩

theorem isWordChar_of_isNameContinue {c : Char} (h : isNameContinue c = true) (hne : c ≠ '_') :
    isWordChar c = true := by
  simp only [isNameContinue, Char.isAlphanum, Bool.or_eq_true, beq_iff_eq, hne, or_false] at h
  rcases h with h | h
  · simp [isWordChar, h]
  · simp [isWordChar, isDecimalDigit_of_isDigit h]

theorem toNat_lt_of_isNameContinue {c : Char} (h : isNameContinue c = true) : c.toNat < 128 := by
  have halpha : c.isAlpha = (c.isUpper || c.isLower) := rfl
  unfold isNameContinue Char.isAlphanum at h
  rw [halpha] at h
  unfold Char.isUpper Char.isLower Char.isDigit at h
  simp only [Bool.or_eq_true, Bool.and_eq_true, decide_eq_true_eq, beq_iff_eq, ge_iff_le,
    UInt32.le_iff_toNat_le] at h
  rcases h with ((⟨-, h⟩ | ⟨-, h⟩) | ⟨-, h⟩) | rfl
  · exact Nat.lt_of_le_of_lt h (by decide)
  · exact Nat.lt_of_le_of_lt h (by decide)
  · exact Nat.lt_of_le_of_lt h (by decide)
  · decide

/-- What holds of each character of names holds of all. -/
theorem of_isNameContinue {P : Char → Prop}
    (hP : ∀ i < 128, isNameContinue (Char.ofNat i) = true → P (Char.ofNat i)) {c : Char}
    (hc : isNameContinue c = true) : P c := by
  have hchar := hP c.toNat (toNat_lt_of_isNameContinue hc)
  rw [Char.ofNat_toNat] at hchar
  exact hchar hc

theorem upper_of_isNameContinue {c : Char} (h : isNameContinue c = true) : Text.upper c = [c.toUpper] :=
  if_pos (toNat_lt_of_isNameContinue h)

theorem isNameContinue_toUpper {c : Char} (h : isNameContinue c = true) : isNameContinue c.toUpper = true :=
  of_isNameContinue (P := fun c => isNameContinue c.toUpper = true) (by decide +kernel) h

theorem toUpper_toUpper {c : Char} (h : isNameContinue c = true) : c.toUpper.toUpper = c.toUpper :=
  of_isNameContinue (P := fun c => c.toUpper.toUpper = c.toUpper) (by decide +kernel) h

theorem toUpper_eq_underscore_iff {c : Char} (h : isNameContinue c = true) : c.toUpper = '_' ↔ c = '_' :=
  of_isNameContinue (P := fun c => c.toUpper = '_' ↔ c = '_') (by decide +kernel) h

theorem toUpper_of_isUpper {c : Char} (h : c.isUpper = true) : c.toUpper = c := by
  have halpha : c.isAlpha = (c.isUpper || c.isLower) := rfl
  have hname : isNameContinue c = true := by simp [isNameContinue, Char.isAlphanum, halpha, h]
  exact of_isNameContinue (P := fun c => c.isUpper = true → c.toUpper = c) (by decide +kernel) hname h

/-! ### Joined words -/

/-- Induction along a name: an underscore is taken together with the character behind it. -/
@[elab_as_elim]
theorem nameInduction {P : List Char → Prop} (nil : P []) (last : P ['_'])
    (mark : ∀ c r, P r → P ('_' :: c :: r)) (letter : ∀ c r, c ≠ '_' → P r → P (c :: r)) : ∀ l, P l
  | [] => nil
  | c :: r =>
    if hc : c = '_' then
      match r with
      | [] => hc ▸ last
      | d :: r => hc ▸ mark d r (nameInduction nil last mark letter r)
    else letter c r hc (nameInduction nil last mark letter r)

theorem joinWords_letter {c : Char} (h : isNameContinue c = true) (hc : c ≠ '_') (r : List Char) :
    joinWords (c :: r) = c :: joinWords r := by
  have hword := isWordChar_of_isNameContinue h hc
  cases r with
  | nil => exact if_pos hword
  | cons d r => exact if_pos hword

theorem joinWords_underscore : joinWords ['_'] = [] := by
  decide

/-- An underscore goes, and the character after it becomes a capital, even if it is an underscore.
-/
theorem joinWords_mark {c : Char} (h : isNameContinue c = true) (r : List Char) :
    joinWords ('_' :: c :: r) = c.toUpper :: joinWords r := by
  have hbreak : c ≠ '\n' := by
    rintro rfl
    revert h
    decide
  have hmark : ¬ isWordChar '_' = true := by decide
  rw [joinWords, if_neg hmark, if_neg hbreak, upper_of_isNameContinue h, List.singleton_append]

theorem joinWords_eq_self {l : List Char} (h : ∀ c ∈ l, isNameContinue c = true) (hmark : '_' ∉ l) :
    joinWords l = l := by
  induction l with
  | nil => rfl
  | cons c l ih =>
    rw [List.forall_mem_cons] at h
    rw [List.mem_cons, not_or] at hmark
    rw [joinWords_letter h.1 (Ne.symm hmark.1), ih h.2 hmark.2]

/-- Joining the words of a name brings in no characters that names cannot hold. -/
theorem isNameContinue_of_mem_joinWords {l : List Char} (h : ∀ c ∈ l, isNameContinue c = true) :
    ∀ c ∈ joinWords l, isNameContinue c = true := by
  induction l using nameInduction with
  | nil => exact h
  | last => exact fun c hc => nomatch hc
  | mark c r ih =>
    rw [List.forall_mem_cons, List.forall_mem_cons] at h
    rw [joinWords_mark h.2.1, List.forall_mem_cons]
    exact ⟨isNameContinue_toUpper h.2.1, ih h.2.2⟩
  | letter c r hc ih =>
    rw [List.forall_mem_cons] at h
    rw [joinWords_letter h.1 hc, List.forall_mem_cons]
    exact ⟨h.1, ih h.2⟩

/-- A name with an underscore in it gets shorter. -/
theorem length_joinWords_le {l : List Char} (h : ∀ c ∈ l, isNameContinue c = true) :
    (joinWords l).length ≤ l.length ∧ ('_' ∈ l → (joinWords l).length < l.length) := by
  induction l using nameInduction with
  | nil => simp [joinWords]
  | last => decide
  | mark c r ih =>
    rw [List.forall_mem_cons, List.forall_mem_cons] at h
    obtain ⟨hle, -⟩ := ih h.2.2
    rw [joinWords_mark h.2.1, List.length_cons, List.length_cons, List.length_cons]
    omega
  | letter c r hc ih =>
    rw [List.forall_mem_cons] at h
    obtain ⟨hle, hlt⟩ := ih h.2
    rw [joinWords_letter h.1 hc, List.length_cons, List.length_cons]
    refine ⟨Nat.succ_le_succ hle, fun hmem => Nat.succ_lt_succ (hlt ?_)⟩
    exact (List.mem_cons.mp hmem).resolve_left (Ne.symm hc)

/-! ### Underscores side by side -/

/-- Two underscores in a row stand at the start or further on. -/
theorem double_cons {c : Char} {l : List Char} :
    ['_', '_'] <:+: c :: l ↔ (c = '_' ∧ l.head? = some '_') ∨ ['_', '_'] <:+: l := by
  have hprefix : ['_', '_'] <+: c :: l ↔ c = '_' ∧ l.head? = some '_' := by
    cases l <;> simp [List.cons_prefix_cons, eq_comm]
  rw [List.infix_cons_iff, hprefix]

/-- An underscore stays if and only if two of them stand side by side. -/
theorem underscore_mem_joinWords_iff {l : List Char} (h : ∀ c ∈ l, isNameContinue c = true) :
    '_' ∈ joinWords l ↔ ['_', '_'] <:+: l := by
  induction l using nameInduction with
  | nil => simp [joinWords]
  | last => decide
  | mark c r ih =>
    rw [List.forall_mem_cons, List.forall_mem_cons] at h
    have hupper : '_' = c.toUpper ↔ c = '_' := eq_comm.trans (toUpper_eq_underscore_iff h.2.1)
    rw [joinWords_mark h.2.1, List.mem_cons, hupper, ih h.2.2, double_cons, double_cons, List.head?_cons,
      Option.some.injEq]
    tauto
  | letter c r hc ih =>
    rw [List.forall_mem_cons] at h
    rw [joinWords_letter h.1 hc, List.mem_cons, ih h.2, double_cons]
    simp [hc, Ne.symm hc]

/-! ### Words -/

/-- The first character in upper case, the others as they are. -/
def capitalized : List Char → List Char
  | [] => []
  | c :: r => c.toUpper :: r

/-- The longest pieces of a name without underscores, each of them capitalized, in one word. -/
def capitalizedWords (n : String) : String :=
  String.ofList ((Text.splitAt '_' n.toList).flatMap capitalized)

theorem upperFirst_eq_capitalized {l : List Char} (h : ∀ c ∈ l, isNameContinue c = true) :
    Text.upperFirst l = capitalized l := by
  cases l with
  | nil => rfl
  | cons c r => rw [Text.upperFirst, upper_of_isNameContinue (h c List.mem_cons_self)]; rfl

/-- Where capitalized words are joined, the first one cannot be capitalized again. -/
theorem capitalized_flatMap {ws : List (List Char)} (h : ∀ w ∈ ws, ∀ c ∈ w, isNameContinue c = true) :
    capitalized (ws.flatMap capitalized) = ws.flatMap capitalized := by
  induction ws with
  | nil => rfl
  | cons w ws ih =>
    rw [List.forall_mem_cons] at h
    rw [List.flatMap_cons]
    cases w with
    | nil => exact ih h.2
    | cons c r =>
      rw [capitalized, List.cons_append, capitalized, toUpper_toUpper (h.1 c List.mem_cons_self)]

theorem length_capitalized (l : List Char) : (capitalized l).length = l.length := by
  cases l <;> rfl

theorem underscore_mem_capitalized_iff {l : List Char} (h : ∀ c ∈ l, isNameContinue c = true) :
    '_' ∈ capitalized l ↔ '_' ∈ l := by
  cases l with
  | nil => rfl
  | cons c r =>
    have hupper : '_' = c.toUpper ↔ '_' = c :=
      eq_comm.trans ((toUpper_eq_underscore_iff (h c List.mem_cons_self)).trans eq_comm)
    rw [capitalized, List.mem_cons, List.mem_cons, hupper]

/-- With single underscores between them, all words but the first are capitalized when they are joined. -/
theorem joinWords_eq_append {l : List Char} (h : ∀ c ∈ l, isNameContinue c = true) (hsingle : ¬ ['_', '_'] <:+: l)
    {w : List Char} {ws : List (List Char)} (hwords : Text.splitAt '_' l = w :: ws) :
    joinWords l = w ++ ws.flatMap capitalized := by
  induction l using nameInduction generalizing w ws with
  | nil =>
    cases hwords
    rfl
  | last =>
    cases hwords
    rfl
  | mark c r ih =>
    rw [List.forall_mem_cons, List.forall_mem_cons] at h
    rw [double_cons, double_cons, not_or, not_or] at hsingle
    have hc : c ≠ '_' := fun hc => hsingle.1 ⟨rfl, congrArg some hc⟩
    obtain ⟨v, vs, hrest⟩ := List.exists_cons_of_ne_nil (Text.splitAt_ne_nil '_' r)
    rw [Text.splitAt_mark, Text.splitAt_cons hc hrest] at hwords
    cases hwords
    rw [joinWords_mark h.2.1, ih h.2.2 hsingle.2.2 hrest]
    rfl
  | letter c r hc ih =>
    rw [List.forall_mem_cons] at h
    rw [double_cons, not_or] at hsingle
    obtain ⟨v, vs, hrest⟩ := List.exists_cons_of_ne_nil (Text.splitAt_ne_nil '_' r)
    rw [Text.splitAt_cons hc hrest] at hwords
    cases hwords
    rw [joinWords_letter h.1 hc, ih h.2 hsingle.2 hrest, List.cons_append]

/-- The first word is capitalized last of all. -/
theorem capitalized_joinWords {l : List Char} (h : ∀ c ∈ l, isNameContinue c = true)
    (hsingle : ¬ ['_', '_'] <:+: l) :
    capitalized (joinWords l) = (Text.splitAt '_' l).flatMap capitalized := by
  obtain ⟨w, ws, hwords⟩ := List.exists_cons_of_ne_nil (Text.splitAt_ne_nil '_' l)
  have hnames : ∀ v ∈ w :: ws, ∀ c ∈ v, isNameContinue c = true := by
    rw [← hwords]
    exact fun v hv c hc => h c (Text.mem_of_mem_splitAt hv hc)
  rw [joinWords_eq_append h hsingle hwords, hwords, List.flatMap_cons]
  cases w with
  | nil => exact capitalized_flatMap fun v hv => hnames v (List.mem_cons_of_mem _ hv)
  | cons c w => rfl

/-! ### Camel case -/

section

variable {n : String}

/-- On names, upper camel case joins the words and then makes the first letter a capital. -/
theorem toList_camelCase (h : ∀ c ∈ n.toList, isNameContinue c = true) :
    (camelCase n).toList = capitalized (joinWords n.toList) := by
  rw [camelCase, String.toList_ofList, upperFirst_eq_capitalized (isNameContinue_of_mem_joinWords h)]

theorem isNameContinue_of_mem_camelCase (h : ∀ c ∈ n.toList, isNameContinue c = true) :
    ∀ c ∈ (camelCase n).toList, isNameContinue c = true := by
  have hwords := isNameContinue_of_mem_joinWords h
  rw [toList_camelCase h]
  cases hn : joinWords n.toList with
  | nil => exact fun c hc => nomatch hc
  | cons c r =>
    rw [hn, List.forall_mem_cons] at hwords
    rw [capitalized, List.forall_mem_cons]
    exact ⟨isNameContinue_toUpper hwords.1, hwords.2⟩

/-- Whether something is left of a name, and no digit comes to its front, where an underscore in front is dropped. -/
def keepsStart (n : String) : Bool :=
  match n.toList with
  | ['_'] => false
  | '_' :: c :: _ => !c.isDigit
  | _ => true

theorem isNameStart_iff {c : Char} (h : isNameContinue c = true) : isNameStart c = !c.isDigit :=
  of_isNameContinue (P := fun c => isNameStart c = !c.isDigit) (by decide +kernel) h

theorem isNameStart_toUpper {c : Char} (h : isNameContinue c = true) : isNameStart c.toUpper = isNameStart c :=
  of_isNameContinue (P := fun c => isNameStart c.toUpper = isNameStart c) (by decide +kernel) h

/-- A name in camel case is a name if what is left of it starts like one. -/
theorem isName_camelCase_iff_start (h : ∀ c ∈ n.toList, isNameContinue c = true) :
    isName (camelCase n) = true ↔ ∃ c r, joinWords n.toList = c :: r ∧ isNameStart c = true := by
  have hwords := isNameContinue_of_mem_joinWords h
  have hall := isNameContinue_of_mem_camelCase h
  rw [toList_camelCase h] at hall
  rw [isName, toList_camelCase h]
  cases hn : joinWords n.toList with
  | nil => simp [capitalized]
  | cons c r =>
    rw [hn, capitalized, List.forall_mem_cons] at hall
    rw [hn, List.forall_mem_cons] at hwords
    simpa [capitalized, isNameStart_toUpper hwords.1] using fun _ => hall.2

/-- The camel case of a name is a name again, unless the underscore in front was all that made it one. -/
theorem isName_camelCase_iff (h : isName n = true) : isName (camelCase n) = true ↔ keepsStart n = true := by
  have hall : ∀ c ∈ n.toList, isNameContinue c = true := fun c => isNameContinue_of_mem h
  have hstart : ∀ c r, n.toList = c :: r → isNameStart c = true := by
    intro c r hn
    rw [isName, hn, Bool.and_eq_true] at h
    exact h.1
  rw [isName_camelCase_iff_start hall, keepsStart]
  cases hn : n.toList with
  | nil => exact absurd hn (toList_ne_nil_of_isName h)
  | cons c r =>
    rw [hn, List.forall_mem_cons] at hall
    by_cases hc : c = '_'
    · subst hc
      cases r with
      | nil => simp [joinWords_underscore]
      | cons d r =>
        rw [List.forall_mem_cons] at hall
        rw [joinWords_mark hall.2.1]
        simp [isNameStart_toUpper hall.2.1, isNameStart_iff hall.2.1]
    · simp [joinWords_letter hall.1 hc, hc, hstart c r hn]

/-- A name in camel case can stand on either side of a dot. -/
theorem dot_not_mem_camelCase (h : isName n = true) : '.' ∉ (camelCase n).toList := by
  intro hdot
  have hname := isNameContinue_of_mem_camelCase (fun c => isNameContinue_of_mem h) '.' hdot
  revert hname
  decide

/-- An underscore is left where two of them stood in a row, and only there. -/
theorem underscore_mem_camelCase_iff (h : ∀ c ∈ n.toList, isNameContinue c = true) :
    '_' ∈ (camelCase n).toList ↔ ['_', '_'] <:+: n.toList := by
  rw [toList_camelCase h, underscore_mem_capitalized_iff (isNameContinue_of_mem_joinWords h),
    underscore_mem_joinWords_iff h]

/-- The names that stay are those without underscores that are capitalized already. -/
theorem camelCase_eq_self_iff (h : ∀ c ∈ n.toList, isNameContinue c = true) :
    camelCase n = n ↔ '_' ∉ n.toList ∧ capitalized n.toList = n.toList := by
  rw [← String.toList_inj, toList_camelCase h]
  constructor
  · intro hself
    have hmark : '_' ∉ n.toList := by
      intro hmark
      have hlength := (length_joinWords_le h).2 hmark
      rw [← length_capitalized, hself] at hlength
      exact Nat.lt_irrefl _ hlength
    rw [joinWords_eq_self h hmark] at hself
    exact ⟨hmark, hself⟩
  · rintro ⟨hmark, hself⟩
    rw [joinWords_eq_self h hmark, hself]

/-- Where underscores stand alone, the words between them are what is capitalized. -/
theorem toList_camelCase_of_single (h : ∀ c ∈ n.toList, isNameContinue c = true)
    (hsingle : ¬ ['_', '_'] <:+: n.toList) :
    (camelCase n).toList = (Text.splitAt '_' n.toList).flatMap capitalized := by
  rw [toList_camelCase h, capitalized_joinWords h hsingle]

theorem underscore_not_mem_capitalizedWords (h : ∀ c ∈ n.toList, isNameContinue c = true) :
    '_' ∉ (capitalizedWords n).toList := by
  rw [capitalizedWords, String.toList_ofList, List.mem_flatMap]
  rintro ⟨w, hw, hmark⟩
  rw [underscore_mem_capitalized_iff fun c hc => h c (Text.mem_of_mem_splitAt hw hc)] at hmark
  exact Text.not_mem_of_mem_splitAt hw hmark

/-- Camel case joins the words of a name with each of them capitalized, leaves no underscore, and is the same
when it is done again, if and only if no two underscores of the name stand side by side. -/
theorem camelCase_joins_words_iff (h : ∀ c ∈ n.toList, isNameContinue c = true) :
    (camelCase n = capitalizedWords n ↔ ¬ ['_', '_'] <:+: n.toList) ∧
      ('_' ∉ (camelCase n).toList ↔ ¬ ['_', '_'] <:+: n.toList) ∧
      (camelCase (camelCase n) = camelCase n ↔ ¬ ['_', '_'] <:+: n.toList) := by
  have hmark := not_congr (underscore_mem_camelCase_iff h)
  refine ⟨?_, hmark, ?_⟩
  · constructor
    · intro hwords
      rw [← hmark, hwords]
      exact underscore_not_mem_capitalizedWords h
    · intro hsingle
      rw [← String.toList_inj, toList_camelCase_of_single h hsingle, capitalizedWords, String.toList_ofList]
  · rw [camelCase_eq_self_iff (isNameContinue_of_mem_camelCase h), hmark, and_iff_left_iff_imp]
    intro hsingle
    rw [toList_camelCase_of_single h hsingle]
    exact capitalized_flatMap fun w hw c hc => h c (Text.mem_of_mem_splitAt hw hc)

end

/-- An underscore that stays keeps two words apart, and goes when camel case is done again. -/
theorem camelCase_of_double_underscore :
    (∀ c ∈ "a__b".toList, isNameContinue c = true) ∧ camelCase "a__b" = "A_b" ∧
      capitalizedWords "a__b" = "AB" ∧ camelCase "A_b" = "AB" :=
  ⟨List.all_eq_true.mp (by decide), by decide, by decide, by decide⟩

/-- Underscores at both ends, and a word that starts with a digit. -/
theorem camelCase_joins_words_of_post :
    let n := "_post_2_authorName_"
    (∀ c ∈ n.toList, isNameContinue c = true) ∧ camelCase n = capitalizedWords n ∧
      capitalizedWords n = "Post2AuthorName" ∧ '_' ∉ (camelCase n).toList ∧
      camelCase (camelCase n) = camelCase n := by
  intro n
  have h : ∀ c ∈ n.toList, isNameContinue c = true := List.all_eq_true.mp (by decide)
  have hsingle : ¬ ['_', '_'] <:+: n.toList := by simp [n, double_cons]
  obtain ⟨hwords, hmark, hagain⟩ := camelCase_joins_words_iff h
  exact ⟨h, hwords.mpr hsingle, by decide, hmark.mpr hsingle, hagain.mpr hsingle⟩

end GraphDecl
