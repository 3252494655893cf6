import GraphDecl.Proofs.Rendering.OperationsFile
import GraphDecl.Proofs.TypeScript.Literals
import GraphDecl.Text.Cutting

/-!
Texts in template literals. What stands between the back quotes evaluates to the text, and different texts are
written differently.
-/

namespace GraphDecl.Rendering

open Text (replaceAll replaceFrom replaceAll_singleton)

open TypeScript

/-! ### One replacement after the other -/

/-- A backslash stands in front of a backslash and of a back quote. -/
def escapeMark (c : Char) : List Char := if c = '\\' ∨ c = '\x60' then ['\\', c] else [c]

/-- Backslashes first and marks second is the same as both at once. -/
theorem replaceAll_marks (s : List Char) :
    replaceAll ['\x60'] ['\\', '\x60'] (replaceAll ['\\'] ['\\', '\\'] s) = s.flatMap escapeMark := by
  rw [replaceAll_singleton, replaceAll_singleton, List.flatMap_assoc]
  refine List.flatMap_congr fun c _ => ?_
  by_cases hslash : c = '\\'
  · simp [escapeMark, hslash]
  · by_cases hquote : c = '\x60' <;> simp [escapeMark, hslash, hquote]

theorem head?_of_flatMap_escapeMark {s : List Char} {c : Char} (hc : c ≠ '\\')
    (h : (s.flatMap escapeMark).head? = some c) : s.head? = some c := by
  cases s with
  | nil => cases h
  | cons d s =>
    rw [List.flatMap_cons, escapeMark] at h
    split at h
    · exact absurd (Option.some.inj h).symm hc
    · exact h

/-- Escaping in one go is the same as doubling the backslashes, then escaping the back quotes, and then the
openings of substitutions: no replacement finds what one before it has written. -/
theorem escapeTemplate_eq_replaceAll (s : List Char) :
    escapeTemplate s = replaceAll ['$', '\x7b'] ['\\', '$', '\x7b']
      (replaceAll ['\x60'] ['\\', '\x60'] (replaceAll ['\\'] ['\\', '\\'] s)) := by
  rw [replaceAll_marks, replaceAll]
  fun_induction escapeTemplate s with
  | case1 => rfl
  | case2 r ih => simp [replaceFrom, escapeMark, ih]
  | case3 c r hopen hc ih => rcases hc with rfl | rfl <;> simp [replaceFrom, escapeMark, List.isPrefixOf, ih]
  | case4 c r hopen hc ih =>
    have hprefix : ['$', '\x7b'].isPrefixOf (c :: r.flatMap escapeMark) = false := by
      rw [Bool.eq_false_iff]
      intro hprefix
      obtain ⟨rfl, t, hbrace⟩ := List.cons_prefix_cons.mp (List.isPrefixOf_iff_prefix.mp hprefix)
      -- a brace behind the dollar sign would have stood there before
      obtain ⟨r', rfl⟩ := List.head?_eq_some_iff.mp
        (head?_of_flatMap_escapeMark (c := '\x7b') (by decide) (by rw [← hbrace]; rfl))
      exact hopen r' rfl rfl
    rw [List.flatMap_cons, escapeMark, if_neg hc, List.singleton_append, replaceFrom, hprefix,
      if_neg Bool.false_ne_true, ih]

/-! ### Reading -/

/-- A character that is no mark stands in front of the written text only if it stands in front of the text. -/
theorem head?_of_escapeTemplate {s rest : List Char} {c : Char} (hc : c ≠ '\\' ∧ c ≠ '\x60')
    (h : (escapeTemplate s ++ '\x60' :: rest).head? = some c) : s.head? = some c := by
  revert h
  fun_cases escapeTemplate s with
  | case1 => exact fun h => absurd (Option.some.inj h).symm hc.2
  | case2 r => exact fun h => absurd (Option.some.inj h).symm hc.1
  | case3 d r hopen hd => exact fun h => absurd (Option.some.inj h).symm hc.1
  | case4 d r hopen hd => exact id

/-- The text up to the closing back quote has one reading, and its value is the text with its line breaks
unified. -/
theorem readTemplate_escapeTemplate (s rest : List Char) :
    readTemplate (escapeTemplate s ++ '\x60' :: rest) = some (units (Text.unifyNewlines s), rest) := by
  fun_induction escapeTemplate s with
  | case1 => simp [readTemplate, Text.unifyNewlines]
  | case2 r ih =>
    have hself : escape? ('$' :: '\x7b' :: (escapeTemplate r ++ '\x60' :: rest)) =
        some (unitsOf '$'.toNat, '\x7b' :: (escapeTemplate r ++ '\x60' :: rest)) := escape?_self (by simp) _
    rw [List.cons_append, List.cons_append, List.cons_append, readTemplate_backslash hself,
      readTemplate_plain (by decide) (by decide) (by decide) (by simp), ih]
    simp [Text.unifyNewlines, followedBy]
  | case3 c r hopen hc ih =>
    have hself : escape? (c :: (escapeTemplate r ++ '\x60' :: rest)) =
        some (unitsOf c.toNat, escapeTemplate r ++ '\x60' :: rest) := by
      apply escape?_self
      tauto
    rw [List.cons_append, List.cons_append, readTemplate_backslash hself, ih]
    rcases hc with rfl | rfl <;> simp [Text.unifyNewlines, followedBy]
  | case4 c r hopen hc ih =>
    rw [not_or] at hc
    rw [List.cons_append]
    -- only a return, and a dollar sign, are read together with what follows
    by_cases hreturn : c = '\r'
    · subst hreturn
      by_cases hfeed : r.head? = some '\n'
      · obtain ⟨r', rfl⟩ := List.head?_eq_some_iff.mp hfeed
        have hrest : escapeTemplate ('\n' :: r') = '\n' :: escapeTemplate r' := rfl
        rw [hrest] at ih ⊢
        exact (readTemplate_return_feed _).trans ih
      · rw [readTemplate_return fun h => hfeed (head?_of_escapeTemplate (by decide) h), ih, Text.unifyNewlines]
        · simp [followedBy, unitsOf]
        · rintro r' rfl
          exact hfeed rfl
    · have hopen' : c = '$' → (escapeTemplate r ++ '\x60' :: rest).head? ≠ some '\x7b' := by
        intro hdollar h
        obtain ⟨r', hr'⟩ := List.head?_eq_some_iff.mp (head?_of_escapeTemplate (by decide) h)
        exact hopen r' hdollar hr'
      rw [readTemplate_plain hc.2 hc.1 hreturn hopen', ih, Text.unifyNewlines]
      · simp [followedBy]
      · exact fun _ h _ => hreturn h
      · exact hreturn

/-- The characters between the back quotes of a template literal are no substitution, no wrong escape and no end
of the literal: it ends at the back quote behind them, whatever follows, and evaluates to the text with every line
break as a line feed. Different texts, also those that evaluate to the same, are written differently. -/
theorem templateText_evaluates :
    (∀ (t : String) (rest : List Char), readTemplate ((templateText t).toList ++ '\x60' :: rest) =
      some (units (Text.unifyNewlines t.toList), rest)) ∧ Function.Injective templateText := by
  constructor
  · intro t rest
    rw [templateText, String.toList_ofList, readTemplate_escapeTemplate]
  · intro t t' h
    have htext : templateText t ++ ("\x60" ++ "") = templateText t' ++ ("\x60" ++ "") := by rw [h]
    exact (templateText_inj.mp htext).1

/-- Escapes beside what looks like one, a lone return, and one with a feed behind it. -/
example : readTemplate ((templateText "\\$\x7bx\x7d\x60$\r\r\n").toList ++ "\x60;".toList) =
    some (units "\\$\x7bx\x7d\x60$\n\n".toList, [';']) := by
  cbv

end GraphDecl.Rendering
