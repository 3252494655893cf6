import GraphDecl.Proofs.Rendering.CommentBlock
import GraphDecl.Proofs.Rendering.Descriptions
import GraphDecl.Proofs.Rendering.OperationsFile

/-!
Indentation as the templates do it: with a filter on the whole text that a macro gives, which cuts the text into lines
and puts them together again. Moving lines one by one comes to the same, since the text of a macro starts with a line
that is not empty and has no line breaks but those between its lines.
-/

namespace GraphDecl

open Rendering

namespace Rendering

/-! ### The filter -/

/-- Moves a text to the right, its first line even if that is empty. The line feed behind the text goes when the lines are
cut. -/
def indentText (width : Nat) (text : String) : String :=
  match (Text.lines (text ++ "\n").toList).map String.ofList with
  | [] => String.ofList (List.replicate width ' ')
  | first :: rest => String.ofList (List.replicate width ' ') ++ Text.joinWith "\n" (first :: indent width rest)

theorem joinWith_append_feed (l : String) (ls : List String) :
    Text.joinWith "\n" (l :: ls) ++ "\n" = unlines (l :: ls) := by
  induction ls generalizing l with
  | nil => simp [unlines, Text.joinWith]
  | cons m ls ih => rw [Text.joinWith_cons_cons, String.append_assoc, ih, unlines_cons l]

/-- A text made of lines is cut into them again. -/
theorem lines_unlines {ls : List String} (h : ∀ l ∈ ls, Text.IsLine l.toList) :
    (Text.lines (unlines ls).toList).map String.ofList = ls := by
  have hlines : Text.lines (unlines ls).toList = ls.map String.toList := by
    rw [toList_unlines]
    exact (Text.inLines_ended (List.forall_mem_map.mpr h)).lines_eq
  rw [hlines, List.map_map]
  exact (List.map_congr_left fun l _ => String.ofList_toList).trans (List.map_id ls)

theorem indentLine_of_ne {l : String} (hl : l ≠ "") (width : Nat) :
    indentLine width l = String.ofList (List.replicate width ' ') ++ l := by
  rw [indentLine, if_neg (by simpa using hl)]

theorem twoSpaces : String.ofList (List.replicate 2 ' ') = "  " := rfl

theorem indent_singleton {l : String} (hl : l ≠ "") (width : Nat) :
    indent width [l] = [String.ofList (List.replicate width ' ') ++ l] :=
  congrArg (fun m => [m]) (indentLine_of_ne hl width)

theorem unlines_singleton (l : String) : unlines [l] = l ++ "\n" := by
  rw [unlines_cons, unlines_nil, String.append_empty]

/-- On the text of some lines the filter does what moving each of them does. -/
theorem indentText_joinWith {l : String} {ls : List String} (hl : l ≠ "") (h : ∀ m ∈ l :: ls, Text.IsLine m.toList)
    (width : Nat) : indentText width (Text.joinWith "\n" (l :: ls)) ++ "\n" = unlines (indent width (l :: ls)) := by
  rw [indentText, joinWith_append_feed, lines_unlines h]
  dsimp only
  rw [String.append_assoc, joinWith_append_feed, unlines_cons, indent, indent, List.map_cons, unlines_cons,
    indentLine_of_ne hl]
  simp only [String.append_assoc]

/-! ### Lines without breaks -/

theorem isLine_of_isCode {s : String} (h : isCode s = true) : Text.IsLine s.toList := by
  intro c hc
  have hcode := List.all_eq_true.mp h c hc
  simp only [Bool.and_eq_true, Bool.not_eq_true'] at hcode
  exact hcode.1

/-- A description breaks no lines but those of its comment block. -/
theorem Documents.isLine {ls ks : List String} (h : Documents ls ks) : ∀ l ∈ ls, Text.IsLine l.toList := by
  induction h with
  | nil => exact nofun
  | line hl h ih => exact List.forall_mem_cons.mpr ⟨isLine_of_isCode hl, ih⟩
  | comment width description h ih =>
    refine List.forall_mem_append.mpr ⟨fun l hl => ?_, ih⟩
    cases description with
    | none => cases hl
    | some text =>
      by_cases htext : text = ""
      · subst htext
        cases hl
      · have hmem := List.mem_map_of_mem (f := String.toList) hl
        rw [map_toList_commentLines htext] at hmem
        exact isLine_of_mem_blockLines (isLine_spaces width) (isLine_of_mem_shownLines width text) _ hmem

end Rendering

/-! ### Interfaces -/

/-- What the macro for an interface gives. -/
def Interface.macroText (i : Interface) : String := Text.joinWith "\n" (interfaceLines i none)

theorem Interface.indentText_macroText {i : Interface} (h : i.IsCode) (width : Nat) :
    indentText width i.macroText ++ "\n" = unlines (indent width (interfaceLines i none)) := by
  have hopen : "export interface " ++ i.name ++ " \x7b" ≠ "" := by simp
  exact indentText_joinWith hopen (documents_interfaceLines h none).isLine width

/-- What the macro for an entity gives for the arguments of one of its fields. -/
def argumentText (name : String) : Option Interface → String
  | some i =>
    if i.members.isEmpty then ""
    else "  " ++ ("export namespace " ++ name ++ " \x7b") ++ "\n" ++ (indentText 4 i.macroText ++ "\n") ++
      ("  " ++ "\x7d" ++ "\n")
  | none => ""

theorem unlines_argumentLines {arguments : Option Interface} (h : ∀ i ∈ arguments, i.IsCode) (name : String) :
    unlines (indent 2 (argumentLines name arguments)) = argumentText name arguments := by
  cases arguments with
  | none => rfl
  | some i =>
    rw [argumentLines, argumentText]
    split
    · rfl
    · rw [indent_append, indent_append, indent_indent, unlines_append, unlines_append,
        ← Interface.indentText_macroText (h i rfl) 4, indent_singleton (by simp), indent_singleton (by decide),
        unlines_singleton, unlines_singleton, twoSpaces]

/-- The lines of a field are those of the text that the templates give for it. -/
theorem unlines_aliasLines {f : FieldAlias} (h : f.IsCode) : unlines (aliasLines f) =
    argumentText f.name f.arguments ++
      (comment f.description 2 ++ ("  " ++ ("export type " ++ f.name ++ " = " ++ f.type ++ ";") ++ "\n")) := by
  rw [aliasLines_eq_indent, indent_append, indent_append, unlines_append, unlines_append,
    unlines_argumentLines h.arguments, indent_singleton (by simp), unlines_singleton, comment, twoSpaces]

/-! ### Result fields -/

namespace ResultField

mutual

/-- What the macro for a result field gives. -/
def macroText : ResultField → String
  | leaf name type => "export type " ++ name ++ " = " ++ type.text ++ ";"
  | composite name members type fields =>
    "export namespace " ++ name ++ " \x7b" ++ "\n" ++ bodyText fields ++ "\x7d" ++ "\n" ++
      ("export type " ++ name ++ " = " ++ compositeText members type ++ ";")

def bodyText : List ResultField → String
  | [] => ""
  | f :: fs => indentText 2 f.macroText ++ "\n" ++ bodyText fs

end

theorem indentText_macroText {f : ResultField} (h : f.IsCode) (htext : f.macroText ++ "\n" = unlines (resultFieldLines f)) :
    indentText 2 f.macroText ++ "\n" = unlines (indent 2 (resultFieldLines f)) := by
  have hlines : ∀ l ∈ resultFieldLines f, Text.IsLine l.toList := by
    intro l hl
    refine isLine_of_isCode (isCode_resultFieldsLines (show AllCode [f] from ⟨h, trivial⟩) l ?_)
    rwa [resultFieldsLines, resultFieldsLines, List.append_nil]
  obtain ⟨l, ls, hcons, hl⟩ : ∃ l ls, resultFieldLines f = l :: ls ∧ l ≠ "" := by
    cases f with
    | leaf name type => exact ⟨_, _, rfl, by simp⟩
    | composite name members type fields => exact ⟨_, _, rfl, by simp⟩
  rw [hcons] at hlines htext ⊢
  rw [← joinWith_append_feed, String.append_left_inj] at htext
  rw [htext, indentText_joinWith hl hlines]

theorem macroText_leaf (name : String) (type : TypeExpression) :
    (leaf name type).macroText = "export type " ++ name ++ " = " ++ type.text ++ ";" := rfl

theorem macroText_composite (name : String) (members : List Member) (type : FieldType) (fields : List ResultField) :
    (composite name members type fields).macroText = "export namespace " ++ name ++ " \x7b" ++ "\n" ++ bodyText fields ++
      "\x7d" ++ "\n" ++ ("export type " ++ name ++ " = " ++ compositeText members type ++ ";") := rfl

theorem bodyText_cons (f : ResultField) (fs : List ResultField) :
    bodyText (f :: fs) = indentText 2 f.macroText ++ "\n" ++ bodyText fs := rfl

/-- The macros, each of them indented by the filter, give the lines of all result fields. -/
theorem bodyText_eq {fs : List ResultField} (h : AllCode fs) : bodyText fs = unlines (indent 2 (resultFieldsLines fs)) := by
  induction fs using ResultField.listInduction with
  | nil => rfl
  | leaf name type fs ih =>
    obtain ⟨hf, hfs⟩ := h
    have htext : (leaf name type).macroText ++ "\n" = unlines (resultFieldLines (leaf name type)) := by
      rw [macroText_leaf, resultFieldLines, unlines_cons, unlines_nil, String.append_empty]
    rw [bodyText_cons, resultFieldsLines, indent_append, unlines_append, ← ih hfs, indentText_macroText hf htext]
  | composite name members type fields fs ihbelow ih =>
    obtain ⟨hf, hfs⟩ := h
    have htext : (composite name members type fields).macroText ++ "\n" =
        unlines (resultFieldLines (composite name members type fields)) := by
      rw [macroText_composite, ihbelow hf.2.2, resultFieldLines]
      simp only [unlines_append, unlines_cons, unlines_nil, String.append_assoc, String.append_empty]
    rw [bodyText_cons, resultFieldsLines, indent_append, unlines_append, ← ih hfs, indentText_macroText hf htext]

end ResultField

/-! ### Compiled documents -/

/-- In the files for a schema and its operations everything that is moved to the right is moved as the filter does it. -/
theorem indented_as_filtered {sdl text : String} {s : Schema} {order : DisplayOrder} {c : Compilation}
    (hs : buildSchema sdl = .ok s) (hc : compile s order text = .ok c) :
    (∀ e, .entity e ∈ c.types → ∀ f ∈ e.space.fields, unlines (aliasLines f) =
      argumentText f.name f.arguments ++
        (comment f.description 2 ++ ("  " ++ ("export type " ++ f.name ++ " = " ++ f.type ++ ";") ++ "\n"))) ∧
    ∀ op ∈ c.operations,
      unlines (indent 2 (interfaceLines op.space.arguments none ++ resultFieldsLines op.space.fields)) =
        indentText 2 op.space.arguments.macroText ++ "\n" ++ ResultField.bodyText op.space.fields := by
  refine ⟨fun e he f hf => ?_, fun op hop => ?_⟩
  · exact unlines_aliasLines ((isCode_of_mem_types hs hc _ he).2.2 f hf)
  · have hcode := isCode_compile hs hc op hop
    rw [indent_append, unlines_append, ← Interface.indentText_macroText hcode.arguments.toIsCode,
      ResultField.bodyText_eq hcode.fields]

end GraphDecl
