import GraphDecl.Proofs.Projection.Path
import GraphDecl.Proofs.TypeScript.Layers
import GraphDecl.Rendering.OperationsFile

/-!
The operands inside the layers: the name of a leaf's type, and the object type of a composite field, whose
members point into the namespace of the field.
-/

namespace GraphDecl

open TypeScript

/-! ### Words -/

theorem isWordPart_of_isNameContinue {c : Char} (h : isNameContinue c = true) : isWordPart c = true := by
  simp [isWordPart, h]

theorem symbols_name {n : String} (h : isName n = true) : symbols n = [.word n] := by
  apply scan_word (toList_ne_nil_of_isName h)
  intro c hc
  exact isWordPart_of_isNameContinue (isNameContinue_of_mem h hc)

theorem symbols_dotted {space n : String} (hspace : isName space = true) (hn : isName n = true) :
    symbols (dotted space n) = [.word (dotted space n)] := by
  have htext : (dotted space n).toList = space.toList ++ '.' :: n.toList := by
    simp [dotted]
  apply scan_word
  · simp [htext]
  · intro c hc
    rw [htext, List.mem_append, List.mem_cons] at hc
    rcases hc with hc | rfl | hc
    · exact isWordPart_of_isNameContinue (isNameContinue_of_mem hspace hc)
    · rfl
    · exact isWordPart_of_isNameContinue (isNameContinue_of_mem hn hc)

theorem wordType?_dotted {space n : String} (hspace : isName space = true) (hn : isName n = true) :
    wordType? (dotted space n) = some (.member space n) := by
  rw [wordType?, pieces_dotted, pieces_name hspace, pieces_name hn]
  rfl

theorem isName_typeName {n : String} (h : isName n = true) : isName (typeName n) = true := by
  unfold typeName
  split
  · next s _ => cases s <;> decide
  · exact h

/-- A leaf's name reads as an atom. -/
theorem reads_typeName {n : String} (h : isName n = true) (hnull : n ≠ "null") :
    Reads .operand (symbols (typeName n)) (.name (typeName n)) := by
  have hword : typeName n ≠ "null" := by
    unfold typeName
    split
    · next s _ => cases s <;> decide
    · exact hnull
  rw [symbols_name (isName_typeName h)]
  refine .word ?_
  rw [wordType?, pieces_name (isName_typeName h)]
  simp [hword]

/-- The words that stand for types without a declaration. -/
def TypeScript.builtinWords : List String := "null" :: Scalar.all.map (·.typeText)

/-- Apart from these, a type is written under its own name. -/
theorem eq_of_typeName_eq {n w : String} (h : typeName n = w) (hw : w ∉ builtinWords) : n = w := by
  unfold typeName at h
  split at h
  · next s _ =>
    subst h
    refine absurd ?_ hw
    cases s <;> decide
  · exact h

theorem eq_name_of_word_mem {w : String} (hw : w ∉ builtinWords) {nullable : Bool} {type : FieldType}
    (hname : isName type.name = true) (h : .word w ∈ symbols (type.expression nullable).text) :
    type.name = w := by
  rw [FieldType.text_expression] at h
  rcases word_mem_symbols_wrap h with rfl | h
  · exact absurd List.mem_cons_self hw
  · rw [symbols_name (isName_typeName hname), List.mem_singleton, Symbol.word.injEq] at h
    exact eq_of_typeName_eq h.symm hw

/-! ### Objects -/

theorem symbols_joinWith (texts : List String) :
    symbols (Text.joinWith " " texts) = texts.flatMap symbols := by
  have hfold (s : String) (rest : List String) :
      symbols (rest.foldl (fun joined t => joined ++ " " ++ t) s) = symbols s ++ rest.flatMap symbols := by
    induction rest generalizing s with
    | nil => simp
    | cons t rest ih =>
      have hglue : symbols (s ++ " " ++ t) = symbols s ++ symbols t := by
        have htext : (s ++ " " ++ t).toList = s.toList ++ ' ' :: t.toList := by
          simp
        rw [symbols, htext, scan_append (by decide), scan_blank, symbols, symbols]
      rw [List.foldl_cons, ih, hglue, List.flatMap_cons, List.append_assoc]
  cases texts with
  | nil => rfl
  | cons s rest => exact hfold s rest

theorem symbols_member {space n : String} (hspace : isName space = true) (hn : isName n = true) :
    symbols (n ++ ": " ++ dotted space n ++ ";") =
      [.word n, .mark ':', .word (dotted space n), .mark ';'] := by
  have htext : (n ++ ": " ++ dotted space n ++ ";").toList =
      n.toList ++ ':' :: ' ' :: ((dotted space n).toList ++ [';']) := by
    simp
  have hend : scan [';'] = [.mark ';'] := by decide
  have hname := symbols_name hn
  have htype := symbols_dotted hspace hn
  rw [symbols] at hname htype
  rw [symbols, htext, scan_append (by decide), scan_mark (by decide) (by decide), scan_blank,
    scan_append (by decide), hname, htype, hend]
  rfl

/-- The tree of an object type whose members point into a namespace. -/
def pointerTree (space : String) (names : List String) : TypeTree :=
  .object (names.map fun n => (n, .member space n))

/-- An object type whose members point into a namespace reads as that. -/
theorem reads_pointers {space : String} (hspace : isName space = true) {names : List String}
    (hnames : ∀ n ∈ names, isName n = true) :
    Reads .members (names.flatMap fun n => symbols (n ++ ": " ++ dotted space n ++ ";"))
      (pointerTree space names) := by
  induction names with
  | nil => exact .noMembers
  | cons n names ih =>
    have hn := hnames n List.mem_cons_self
    have hrest := ih fun m hm => hnames m (List.mem_cons_of_mem _ hm)
    rw [List.flatMap_cons, symbols_member hspace hn]
    exact .member (.operand (.word (wordType?_dotted hspace hn))) hrest

/-- The text of a composite field reads as an object type inside the layers of its type. -/
theorem reads_compositeText {space : String} (hspace : isName space = true) {names : List String}
    (hnames : ∀ n ∈ names, isName n = true) (type : FieldType) :
    Reads .type (symbols (Rendering.compositeText (flatMembers space names) type))
      (type.tree (pointerTree space names) true) := by
  refine (reads_wrap ?_ true type).1
  have hmembers : (flatMembers space names).map (fun m => m.name ++ ": " ++ m.type ++ ";") =
      names.map fun n => n ++ ": " ++ dotted space n ++ ";" := by
    simp [flatMembers]
  have hsymbols (object : String) : symbols ("\x7b " ++ object ++ " \x7d") =
      .mark '\x7b' :: symbols object ++ [.mark '\x7d'] := by
    have htext : ("\x7b " ++ object ++ " \x7d").toList = '\x7b' :: ' ' :: (object.toList ++ [' ', '\x7d']) := by
      simp
    have hend : scan [' ', '\x7d'] = [.mark '\x7d'] := by decide
    rw [symbols, htext, scan_mark (by decide) (by decide), scan_blank, scan_append (by decide), hend, symbols]
    rfl
  rw [hsymbols, hmembers, symbols_joinWith, List.flatMap_map]
  exact .object (reads_pointers hspace hnames)

end GraphDecl
