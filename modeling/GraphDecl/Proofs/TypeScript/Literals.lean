import Mathlib.Data.List.Basic
import GraphDecl.Text.Digit

/-!
Literals of TypeScript modules, read from behind their opening quote. A string in single quotes and a template
literal have the same escapes; a string has no line breaks, and a template literal has its line breaks unified. The
value of a literal is a sequence of UTF-16 code units.
-/

namespace GraphDecl.TypeScript

/-! ### Code units -/

/-- The code units of a code point: itself, or two surrogates. -/
def unitsOf (n : Nat) : List Nat :=
  if n < 0x10000 then [n] else [0xd800 + (n - 0x10000) / 0x400, 0xdc00 + (n - 0x10000) % 0x400]

def units (s : List Char) : List Nat := s.flatMap fun c => unitsOf c.toNat

@[simp] theorem units_nil : units [] = [] := rfl

@[simp] theorem units_cons (c : Char) (s : List Char) : units (c :: s) = unitsOf c.toNat ++ units s := rfl

@[simp] theorem units_append (s t : List Char) : units (s ++ t) = units s ++ units t :=
  List.flatMap_append

theorem length_unitsOf_pos (n : Nat) : 0 < (unitsOf n).length := by
  unfold unitsOf
  split <;> simp

theorem length_unitsOf_le (n : Nat) : (unitsOf n).length ≤ 2 := by
  unfold unitsOf
  split <;> simp

theorem length_le_length_units (s : List Char) : s.length ≤ (units s).length := by
  induction s with
  | nil => exact Nat.le_refl 0
  | cons c s ih =>
    have hpos := length_unitsOf_pos c.toNat
    rw [units_cons, List.length_append, List.length_cons]
    omega

/-! ### Escapes -/

/-- The four characters that end a line of source text. -/
def endsLine (c : Char) : Bool := c == '\n' || c == '\r' || c == '\u2028' || c == '\u2029'

/-- The letters that stand for control characters behind a backslash. -/
def controlEscapes : List (Char × Nat) :=
  [('b', 0x8), ('t', 0x9), ('n', 0xa), ('v', 0xb), ('f', 0xc), ('r', 0xd)]

/-- An escape by this many hexadecimal digits: its value, and what follows it. -/
def hexEscape? (count : Nat) (cs : List Char) : Option (List Nat × List Char) :=
  let digits := cs.take count
  if digits.length = count ∧ digits.all Text.isHexDigit then
    some (unitsOf (Text.hexValue digits), cs.drop count)
  else none

/-- An escape by digits up to a closing brace. -/
def bracedEscape? (cs : List Char) : Option (List Nat × List Char) :=
  let digits := cs.takeWhile Text.isHexDigit
  match cs.dropWhile Text.isHexDigit with
  | '\x7d' :: r =>
    if digits ≠ [] ∧ Text.hexValue digits ≤ 0x10ffff then some (unitsOf (Text.hexValue digits), r) else none
  | _ => none

/-- What the characters behind a backslash stand for, and what follows them; nothing if they are no escape. A
line may go on behind a backslash at its end. -/
def escape? : List Char → Option (List Nat × List Char)
  | [] => none
  | '\r' :: '\n' :: r => some ([], r)
  | 'x' :: r => hexEscape? 2 r
  | 'u' :: '\x7b' :: r => bracedEscape? r
  | 'u' :: r => hexEscape? 4 r
  | '0' :: r => if r.head?.any Char.isDigit then none else some ([0], r)
  | c :: r =>
    if c.isDigit then none
    else if endsLine c then some ([], r)
    else some ((controlEscapes.lookup c).elim (unitsOf c.toNat) ([·]), r)

/-- An escape is made of these characters. A quote is escaped only by itself. -/
structure IsEscape (taken : List Char) (value : List Nat) : Prop where
  ne_nil : taken ≠ []
  length_le : value.length ≤ (units taken).length
  quote : '\x27' ∈ taken → taken = ['\x27']

theorem IsEscape.of_long {taken : List Char} {n : Nat} (hlength : 2 ≤ taken.length) (hquote : '\x27' ∉ taken) :
    IsEscape taken (unitsOf n) := by
  refine ⟨?_, ?_, fun h => absurd h hquote⟩
  · rintro rfl
    cases hlength
  · exact Nat.le_trans (length_unitsOf_le n) (Nat.le_trans hlength (length_le_length_units taken))

theorem quote_not_mem_of_all_isHexDigit {digits : List Char} (h : digits.all Text.isHexDigit = true) :
    '\x27' ∉ digits := by
  intro hquote
  have hdigit := List.all_eq_true.mp h _ hquote
  revert hdigit
  decide

theorem hexEscape?_eq_some {letter : Char} (hletter : letter ≠ '\x27') {count : Nat} (hcount : count ≠ 0)
    {cs rest : List Char} {value : List Nat} (h : hexEscape? count cs = some (value, rest)) :
    ∃ taken, letter :: cs = taken ++ rest ∧ IsEscape taken value := by
  simp only [hexEscape?] at h
  split at h
  · next hdigits =>
    cases h
    refine ⟨letter :: cs.take count, by simp, .of_long ?_ ?_⟩
    · rw [List.length_cons, hdigits.1]
      omega
    · rw [List.mem_cons, not_or]
      exact ⟨hletter.symm, quote_not_mem_of_all_isHexDigit hdigits.2⟩
  · cases h

theorem bracedEscape?_eq_some {cs rest : List Char} {value : List Nat}
    (h : bracedEscape? cs = some (value, rest)) :
    ∃ taken, 'u' :: '\x7b' :: cs = taken ++ rest ∧ IsEscape taken value := by
  simp only [bracedEscape?] at h
  split at h
  · next r hr =>
    split at h
    · cases h
      have hcs : cs = cs.takeWhile Text.isHexDigit ++ '\x7d' :: rest := by
        rw [← hr, List.takeWhile_append_dropWhile]
      refine ⟨'u' :: '\x7b' :: (cs.takeWhile Text.isHexDigit ++ ['\x7d']), ?_, .of_long ?_ ?_⟩
      · rw [List.cons_append, List.cons_append, List.append_assoc, List.singleton_append, ← hcs]
      · simp
      · have hdigits := quote_not_mem_of_all_isHexDigit (List.all_takeWhile (l := cs) (p := Text.isHexDigit))
        simp [hdigits]
    · cases h
  · cases h

/-- An escape takes characters from the front of what is behind the backslash. -/
theorem escape?_eq_some {cs rest : List Char} {value : List Nat} (h : escape? cs = some (value, rest)) :
    ∃ taken, cs = taken ++ rest ∧ IsEscape taken value := by
  unfold escape? at h
  split at h
  · cases h
  · cases h
    exact ⟨['\r', '\n'], rfl, by simp, by simp, by simp⟩
  · exact hexEscape?_eq_some (by decide) (by decide) h
  · exact bracedEscape?_eq_some h
  · exact hexEscape?_eq_some (by decide) (by decide) h
  · split at h
    · cases h
    · cases h
      exact ⟨['0'], rfl, by simp, by decide, by simp⟩
  · next c r _ _ _ _ _ =>
    split at h
    · cases h
    · split at h
      · cases h
        exact ⟨[c], rfl, by simp, by simp, by simp [eq_comm]⟩
      · cases h
        refine ⟨[c], rfl, by simp, ?_, by simp [eq_comm]⟩
        cases controlEscapes.lookup c with
        | none => simp
        | some n => exact length_le_length_units [c]

/-- An escape takes a character at least. -/
theorem length_lt_of_escape? {cs rest : List Char} {value : List Nat} (h : escape? cs = some (value, rest)) :
    rest.length < cs.length := by
  obtain ⟨taken, rfl, htaken⟩ := escape?_eq_some h
  have hpos := List.length_pos_of_ne_nil htaken.ne_nil
  rw [List.length_append]
  omega

/-- A mark behind a backslash stands for itself. -/
theorem escape?_self {c : Char} (h : c = '\\' ∨ c = '\x27' ∨ c = '\x60' ∨ c = '$') (r : List Char) :
    escape? (c :: r) = some (unitsOf c.toNat, r) := by
  rcases h with rfl | rfl | rfl | rfl <;> rfl

/-! ### Literals -/

/-- Puts a value in front of what is read behind it. -/
def followedBy (value : List Nat) (literal : Option (List Nat × List Char)) : Option (List Nat × List Char) :=
  literal.map fun (tail, rest) => (value ++ tail, rest)

theorem followedBy_eq_some {value whole : List Nat} {literal : Option (List Nat × List Char)}
    {rest : List Char} : followedBy value literal = some (whole, rest) ↔
      ∃ tail, literal = some (tail, rest) ∧ value ++ tail = whole := by
  simp [followedBy]

/-- Reads the rest of a string in single quotes: its value, and what stands behind the closing quote. There is
none if the line ends first, where the separators U+2028 and U+2029 may stand in a string. -/
def readString : List Char → Option (List Nat × List Char)
  | [] => none
  | '\x27' :: r => some ([], r)
  | '\\' :: r =>
    match _h : escape? r with
    | some (value, rest) => followedBy value (readString rest)
    | none => none
  | c :: r => if c = '\n' ∨ c = '\r' then none else followedBy (unitsOf c.toNat) (readString r)
termination_by cs => cs.length
decreasing_by
  · exact Nat.lt_succ_of_lt (length_lt_of_escape? ‹_›)
  · exact Nat.lt_succ_self _

/-- Reads the rest of a template literal: its value, in which every line break is a line feed, and what stands
behind the closing back quote. There is none if a substitution opens, or if an escape is none. -/
def readTemplate : List Char → Option (List Nat × List Char)
  | [] => none
  | '\x60' :: r => some ([], r)
  | '$' :: '\x7b' :: _ => none
  | '\\' :: r =>
    match _h : escape? r with
    | some (value, rest) => followedBy value (readTemplate rest)
    | none => none
  | '\r' :: '\n' :: r => followedBy [0xa] (readTemplate r)
  | '\r' :: r => followedBy [0xa] (readTemplate r)
  | c :: r => followedBy (unitsOf c.toNat) (readTemplate r)
termination_by cs => cs.length
decreasing_by
  · exact Nat.lt_succ_of_lt (length_lt_of_escape? ‹_›)
  · exact Nat.lt_succ_of_lt (Nat.lt_succ_self _)
  · exact Nat.lt_succ_self _
  · exact Nat.lt_succ_self _

theorem readTemplate_backslash {r rest : List Char} {value : List Nat} (h : escape? r = some (value, rest)) :
    readTemplate ('\\' :: r) = followedBy value (readTemplate rest) := by
  rw [readTemplate]
  split
  · next value' rest' h' =>
    cases h.symm.trans h'
    rfl
  · next hnone => cases h.symm.trans hnone

theorem readTemplate_return {r : List Char} (h : r.head? ≠ some '\n') :
    readTemplate ('\r' :: r) = followedBy [0xa] (readTemplate r) := by
  rw [readTemplate]
  rintro r' rfl
  exact h rfl

theorem readTemplate_return_feed (r : List Char) : readTemplate ('\r' :: '\n' :: r) = readTemplate ('\n' :: r) := by
  rw [readTemplate, readTemplate] <;> simp [unitsOf]

theorem readTemplate_plain {c : Char} (hquote : c ≠ '\x60') (hslash : c ≠ '\\') (hreturn : c ≠ '\r')
    {r : List Char} (hopen : c = '$' → r.head? ≠ some '\x7b') :
    readTemplate (c :: r) = followedBy (unitsOf c.toNat) (readTemplate r) := by
  rw [readTemplate]
  · exact hquote
  · rintro r' rfl rfl
    exact hopen rfl rfl
  · exact hslash
  · exact fun _ h _ => hreturn h
  · exact hreturn

/-! ### Strings without escapes -/

/-- Whether a character in single quotes stands for itself. -/
def isPlain (c : Char) : Bool := c != '\x27' && c != '\\' && c != '\n' && c != '\r'

theorem isPlain_iff {c : Char} : isPlain c = true ↔ c ≠ '\x27' ∧ c ≠ '\\' ∧ c ≠ '\n' ∧ c ≠ '\r' := by
  simp [isPlain, and_assoc]

theorem readString_backslash (r : List Char) :
    readString ('\\' :: r) = (escape? r).bind fun (value, rest) => followedBy value (readString rest) := by
  rw [readString]
  split
  · next value rest h => rw [h, Option.bind_some]
  · next h => rw [h, Option.bind_none]

theorem readString_break {c : Char} (hc : c = '\n' ∨ c = '\r') (r : List Char) : readString (c :: r) = none := by
  rcases hc with rfl | rfl <;> rw [readString] <;> simp

theorem readString_plain {c : Char} (hc : isPlain c = true) (r : List Char) :
    readString (c :: r) = followedBy (unitsOf c.toNat) (readString r) := by
  obtain ⟨hquote, hslash, hfeed, hreturn⟩ := isPlain_iff.mp hc
  rw [readString, if_neg (not_or.mpr ⟨hfeed, hreturn⟩)]
  · exact hquote
  · exact hslash

/-- A string of plain characters is what stands between its quotes. -/
theorem readString_of_plain {m : List Char} (h : ∀ c ∈ m, isPlain c = true) (r : List Char) :
    readString (m ++ '\x27' :: r) = some (units m, r) := by
  induction m with
  | nil => rw [List.nil_append, readString, units_nil]
  | cons c m ih =>
    rw [List.forall_mem_cons] at h
    rw [List.cons_append, readString_plain h.1, ih h.2]
    rfl

/-- Behind the closing quote a semicolon ends the line, so that no escape reaches beyond the quote. -/
theorem exists_escape_of_readString {m z rest : List Char} {value : List Nat}
    (h : readString ('\\' :: (m ++ '\x27' :: ';' :: '\n' :: z)) = some (value, rest)) :
    ∃ taken m' escaped tail, m = taken ++ m' ∧ IsEscape taken escaped ∧
      readString (m' ++ '\x27' :: ';' :: '\n' :: z) = some (tail, rest) ∧ escaped ++ tail = value := by
  rw [readString_backslash, Option.bind_eq_some_iff] at h
  obtain ⟨⟨escaped, rest'⟩, hescape, h⟩ := h
  obtain ⟨tail, htail, hvalue⟩ := followedBy_eq_some.mp h
  obtain ⟨taken, hcs, htaken⟩ := escape?_eq_some hescape
  rcases List.append_eq_append_iff.mp hcs with ⟨more, rfl, hmore⟩ | ⟨m', rfl, rfl⟩
  · cases more with
    | nil =>
      rw [List.append_nil] at htaken
      exact ⟨m, [], escaped, tail, (List.append_nil m).symm, htaken, hmore ▸ htail, hvalue⟩
    | cons c more =>
      rw [List.cons_append, List.cons.injEq] at hmore
      -- the quote is taken, so it is all that is taken
      have hquote := htaken.quote (by simp [← hmore.1])
      have hnil : more = [] := by
        have hlength := congrArg List.length hquote
        rw [List.length_append, List.length_cons, List.length_singleton] at hlength
        exact List.length_eq_zero_iff.mp (by omega)
      rw [hnil, List.nil_append] at hmore
      rw [← hmore.2, readString_plain rfl, readString_break (.inl rfl)] at htail
      cases htail
  · exact ⟨taken, m', escaped, tail, rfl, htaken, htail, hvalue⟩

/-- A text in quotes that is read to its length in code units has no character that does not stand for itself. All
others make the value shorter or the string no string. -/
theorem plain_or_lt_of_readString {m z rest : List Char} {value : List Nat}
    (h : readString (m ++ '\x27' :: ';' :: '\n' :: z) = some (value, rest)) :
    ((∀ c ∈ m, isPlain c = true) ∧ value = units m) ∨ value.length < (units m).length := by
  induction hlength : m.length using Nat.strongRecOn generalizing m value with
  | _ length ih =>
    cases m with
    | nil =>
      rw [List.nil_append, readString] at h
      cases h
      exact .inl ⟨nofun, rfl⟩
    | cons c m =>
      have hpos := length_unitsOf_pos c.toNat
      rw [List.cons_append] at h
      rw [List.length_cons] at hlength
      rw [units_cons, List.length_append]
      by_cases hplain : isPlain c = true
      · rw [readString_plain hplain] at h
        obtain ⟨tail, htail, rfl⟩ := followedBy_eq_some.mp h
        rcases ih m.length (by omega) htail rfl with ⟨hm, rfl⟩ | hlt
        · exact .inl ⟨List.forall_mem_cons.mpr ⟨hplain, hm⟩, rfl⟩
        · rw [List.length_append]
          exact .inr (by omega)
      · right
        rw [isPlain_iff, not_and_or, not_and_or, not_and_or, not_not, not_not, not_not, not_not] at hplain
        rcases hplain with rfl | rfl | hbreak
        · rw [readString] at h
          cases h
          exact Nat.lt_add_right _ hpos
        · obtain ⟨taken, m', escaped, tail, rfl, htaken, htail, rfl⟩ := exists_escape_of_readString h
          have hescaped := htaken.length_le
          have hm' : tail.length ≤ (units m').length := by
            rw [List.length_append] at hlength
            rcases ih m'.length (by omega) htail rfl with ⟨-, rfl⟩ | hlt
            · exact Nat.le_refl _
            · exact Nat.le_of_lt hlt
          rw [units_append, List.length_append, List.length_append]
          omega
        · rw [readString_break hbreak] at h
          cases h

end GraphDecl.TypeScript
