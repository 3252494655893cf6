import GraphDecl.Proofs.TypeScript.Grammar
import GraphDecl.TypeExpression

/-!
The text of a GraphQL type, read back. The layers around a named type are written with bars and brackets;
whatever operand stands inside them, the reading admits `null` and arrays at the layers that have them.
-/

namespace GraphDecl

open TypeScript

/-! ### Occurrence -/

theorem Text.occurs_append {word : List Char} (hword : word ≠ []) (before after : List Char) :
    Text.occurs word (before ++ word ++ after) = true := by
  induction before with
  | nil =>
    cases word with
    | nil => exact absurd rfl hword
    | cons c r => simp [Text.occurs]
  | cons c before ih =>
    rw [List.cons_append, List.cons_append, Text.occurs, ih, Bool.or_true]

theorem occurs_orNull (text : String) : Text.occurs " | ".toList (orNull text).toList = true := by
  have htext : (orNull text).toList = text.toList ++ " | ".toList ++ "null".toList := by
    simp [orNull]
  rw [htext]
  exact Text.occurs_append (by decide) _ _

/-! ### Pieces of texts -/

theorem symbols_orNull (text : String) :
    symbols (orNull text) = symbols text ++ .mark '|' :: [.word "null"] := by
  have htext : (orNull text).toList = text.toList ++ ' ' :: '|' :: ' ' :: "null".toList := by
    simp [orNull]
  have hnull : scan "null".toList = [.word "null"] := by decide
  rw [symbols, htext, scan_append (by decide), scan_blank, scan_mark (by decide) (by decide), scan_blank,
    hnull, symbols]

theorem symbols_groupArray (text : String) : symbols ("(" ++ text ++ ")[]") =
    (.mark '(' :: symbols text ++ [.mark ')']) ++ [.mark '[', .mark ']'] := by
  have htext : ("(" ++ text ++ ")[]").toList = '(' :: (text.toList ++ [')', '[', ']']) := by
    simp
  have hclose : scan [')', '[', ']'] = [.mark ')', .mark '[', .mark ']'] := by decide
  rw [symbols, htext, scan_mark (by decide) (by decide), scan_append (by decide), hclose, symbols]
  simp

theorem symbols_array (text : String) :
    symbols (text ++ "[]") = symbols text ++ [.mark '[', .mark ']'] := by
  have htext : (text ++ "[]").toList = text.toList ++ ['[', ']'] := by
    simp
  have hbrackets : scan ['[', ']'] = [.mark '[', .mark ']'] := by decide
  rw [symbols, htext, scan_append (by decide), hbrackets, symbols]

/-- A type with `null` beside it reads as either of them. -/
theorem reads_orNull {text : String} {t : TypeTree} (h : Reads .operand (symbols text) t) :
    Reads .type (symbols (orNull text)) (.either t .null) := by
  rw [symbols_orNull]
  exact .either (.operand h) (.word wordType?_null)

/-- Arrays are read as arrays, as brackets stand around what has a bar in it. -/
theorem reads_arrayOf {text : String} {t : TypeTree} (h : Reads .type (symbols text) t)
    (hoperand : Text.occurs " | ".toList text.toList = false → Reads .operand (symbols text) t) :
    Reads .operand (symbols (arrayOf text)) (.array t) := by
  unfold arrayOf
  split
  · rw [symbols_groupArray]
    exact .array (.group h)
  · next hbar =>
    rw [symbols_array]
    exact .array (hoperand (by simpa using hbar))

theorem word_mem_symbols_arrayOf {w text : String} :
    .word w ∈ symbols (arrayOf text) ↔ .word w ∈ symbols text := by
  unfold arrayOf
  split
  · simp [symbols_groupArray]
  · simp [symbols_array]

/-! ### Layers -/

def TypeScript.TypeTree.orNullIf (nullable : Bool) (t : TypeTree) : TypeTree :=
  if nullable then .either t .null else t

def FieldType.tree (t : TypeTree) (nullable : Bool) : FieldType → TypeTree
  | named _ => t.orNullIf nullable
  | list element => (TypeTree.array (element.tree t true)).orNullIf nullable
  | nonNull inner => inner.tree t false

/-- The text of a type reads as its tree; it is an operand unless it has a bar outside all brackets. -/
theorem reads_wrap {text : String} {t : TypeTree} (h : Reads .operand (symbols text) t) (nullable : Bool)
    (type : FieldType) :
    Reads .type (symbols (type.wrap nullable text)) (type.tree t nullable) ∧
      (Text.occurs " | ".toList (type.wrap nullable text).toList = false →
        Reads .operand (symbols (type.wrap nullable text)) (type.tree t nullable)) := by
  have hlayer {text : String} {t : TypeTree} (h : Reads .operand (symbols text) t) (nullable : Bool) :
      Reads .type (symbols (if nullable then orNull text else text)) (t.orNullIf nullable) ∧
        (Text.occurs " | ".toList (if nullable then orNull text else text).toList = false →
          Reads .operand (symbols (if nullable then orNull text else text)) (t.orNullIf nullable)) := by
    cases nullable with
    | false => exact ⟨.operand h, fun _ => h⟩
    | true =>
      refine ⟨reads_orNull h, ?_⟩
      -- such a text has a bar, so that an array puts brackets around it
      intro hbar
      rw [if_pos rfl, occurs_orNull] at hbar
      cases hbar
  induction type generalizing nullable with
  | named n => exact hlayer h nullable
  | list element ih =>
    obtain ⟨htype, hoperand⟩ := ih true
    exact hlayer (reads_arrayOf htype hoperand) nullable
  | nonNull inner ih => exact ih false

/-- The layers of a type bring no word in but `null`. -/
theorem word_mem_symbols_wrap {w text : String} {nullable : Bool} {type : FieldType}
    (h : .word w ∈ symbols (type.wrap nullable text)) : w = "null" ∨ .word w ∈ symbols text := by
  have hlayer {text : String} {nullable : Bool}
      (h : .word w ∈ symbols (if nullable then orNull text else text)) :
      w = "null" ∨ .word w ∈ symbols text := by
    cases nullable with
    | false => exact .inr h
    | true =>
      rw [if_pos rfl, symbols_orNull] at h
      rcases List.mem_append.mp h with h | h
      · exact .inr h
      · exact .inl (by simpa using h)
  induction type generalizing nullable with
  | named n => exact hlayer h
  | list element ih =>
    rcases hlayer h with hnull | h
    · exact .inl hnull
    · exact ih (word_mem_symbols_arrayOf.mp h)
  | nonNull inner ih => exact ih h

/-- The text of a leaf is the TypeScript name of its type inside the layers. -/
theorem FieldType.text_expression (nullable : Bool) (type : FieldType) :
    (type.expression nullable).text = type.wrap nullable (typeName type.name) := by
  induction type generalizing nullable with
  | named n => cases nullable <;> rfl
  | list element ih =>
    cases nullable <;>
      simp [expression, TypeExpression.orNullIf, TypeExpression.array, wrap, ih, name]
  | nonNull inner ih => exact ih false

section

variable {atoms : String → Json → Prop} {scope : String → String → Json → Prop}

theorem admits_orNullIf {t : TypeTree} {nullable : Bool} {v : Json} :
    (t.orNullIf nullable).Admits atoms scope v ↔
      (nullable = true ∧ v = .null) ∨ t.Admits atoms scope v := by
  cases nullable with
  | false => simp [TypeTree.orNullIf]
  | true => simp [TypeTree.orNullIf, TypeTree.Admits, or_comm]

/-- The tree of a type admits the values of the type. -/
theorem admits_tree {t : TypeTree} {nullable : Bool} {type : FieldType} {v : Json} :
    (type.tree t nullable).Admits atoms scope v ↔ type.Admits (t.Admits atoms scope) nullable v := by
  induction type generalizing nullable v with
  | named n => exact admits_orNullIf
  | list element ih => simp only [FieldType.tree, admits_orNullIf, TypeTree.Admits, FieldType.Admits, ih]
  | nonNull inner ih => exact ih

end

end GraphDecl
