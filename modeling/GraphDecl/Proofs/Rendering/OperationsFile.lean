import GraphDecl.Proofs.Projection.Meaning
import GraphDecl.Proofs.Rendering.Code

/-!
The file for operations, read back. Its text determines the imports and everything that it shows of the
operations: the literals end at their first bare back quote, the lines of the declarations stand on their own,
and a namespace ends at the first brace that is not indented.
-/

namespace GraphDecl

open Rendering

/-! ### What the file shows -/

/-- A result field with the type that the file declares for it, and for a composite field with what stands in
its namespace. -/
inductive ShownField
  | leaf (name type : String)
  | composite (name : String) (fields : List ShownField) (type : String)
  deriving Repr

namespace ResultField

mutual

def shown : ResultField → ShownField
  | leaf name type => .leaf name type.text
  | composite name members type fields => .composite name (allShown fields) (compositeText members type)

def allShown : List ResultField → List ShownField
  | [] => []
  | f :: fs => f.shown :: allShown fs

end

end ResultField

def Interface.entries (i : Interface) : List (String × String) := i.members.map fun m => (m.name, m.type)

structure ShownOperation where
  name : String
  signature : String
  selection : List (String × String)
  space : String
  arguments : List (String × String)
  fields : List ShownField
  deriving Repr

def Operation.shown (op : Operation) : ShownOperation :=
  { name := op.name
    signature := op.signature
    selection := op.selection.entries
    space := op.space.name
    arguments := op.space.arguments.entries
    fields := ResultField.allShown op.space.fields }

/-! ### Declarations in code -/

/-- An interface in code, none of whose members has a description. -/
structure Interface.IsPlainCode (i : Interface) : Prop extends i.IsCode where
  plain : ∀ m ∈ i.members, m.description = none

namespace ResultField

mutual

/-- The field and all fields below it have names and types in code. -/
def IsCode : ResultField → Prop
  | leaf name type => isNameLike name = true ∧ isCode type.text = true
  | composite name members type fields =>
    isNameLike name = true ∧ isCode (compositeText members type) = true ∧ AllCode fields

def AllCode : List ResultField → Prop
  | [] => True
  | f :: fs => f.IsCode ∧ AllCode fs

end

end ResultField

/-- Everything in the record of an operation is code, but for the text of the operation. -/
structure Operation.IsCode (op : Operation) : Prop where
  name : isNameLike op.name = true
  selection : op.selection.IsPlainCode
  space : isNameLike op.space.name = true
  arguments : op.space.arguments.IsPlainCode
  fields : ResultField.AllCode op.space.fields

/-! ### Literals -/

namespace Rendering

/-- Reads the rest of a literal: the text up to the first back quote that is not escaped, with the character
itself for each escape, and what stands behind the back quote. -/
def readLiteral : List Char → Option (List Char × List Char)
  | [] => none
  | '\x60' :: rest => some ([], rest)
  | '\\' :: c :: r => (readLiteral r).map fun (text, rest) => (c :: text, rest)
  | c :: r => (readLiteral r).map fun (text, rest) => (c :: text, rest)

/-- An escaped text is read back up to the mark that closes it. -/
theorem readLiteral_escapeTemplate (s rest : List Char) :
    readLiteral (escapeTemplate s ++ '\x60' :: rest) = some (s, rest) := by
  fun_induction escapeTemplate s with
  | case1 => rfl
  | case2 r ih => simp [readLiteral, ih]
  | case3 c r hopen hc ih => simp [readLiteral, ih]
  | case4 c r hopen hc ih =>
    rw [not_or] at hc
    rw [List.cons_append, readLiteral, ih]
    · rfl
    · exact hc.2
    · exact fun d r' hd => absurd hd hc.1

/-- Different texts are written differently, whatever stands behind them. -/
theorem templateText_inj {s s' : String} {rest rest' : String} :
    templateText s ++ ("\x60" ++ rest) = templateText s' ++ ("\x60" ++ rest') ↔ s = s' ∧ rest = rest' := by
  constructor
  · intro h
    have hread := congrArg (fun t => readLiteral t.toList) h
    simpa [templateText, readLiteral_escapeTemplate, String.toList_inj] using hread
  · rintro ⟨rfl, rfl⟩
    rfl

/-! ### Interfaces -/

def memberLine (m : Member) : String := m.name ++ ": " ++ m.type ++ ";"

theorem interfaceLines_of_plain {i : Interface} (h : ∀ m ∈ i.members, m.description = none) :
    interfaceLines i none =
      ("export interface " ++ i.name ++ " \x7b") :: (indent 2 (i.members.map memberLine) ++ ["\x7d"]) := by
  have hmembers : i.members.flatMap memberLines = indent 2 (i.members.map memberLine) := by
    rw [indent, List.map_map, List.map_eq_flatMap]
    refine List.flatMap_congr fun m hm => ?_
    rw [memberLines, h m hm]
    rfl
  rw [interfaceLines, hmembers]
  rfl

theorem entries_of_memberLine {ms ms' : List Member} (h : ∀ m ∈ ms, m.IsCode) (h' : ∀ m ∈ ms', m.IsCode)
    (hlines : ms.map memberLine = ms'.map memberLine) :
    ms.map (fun m => (m.name, m.type)) = ms'.map fun m => (m.name, m.type) := by
  induction ms generalizing ms' with
  | nil => rw [List.map_eq_nil_iff.mp hlines.symm]
  | cons m ms ih =>
    cases ms' with
    | nil => cases hlines
    | cons m' ms' =>
      rw [List.forall_mem_cons] at h h'
      obtain ⟨hline, hlines⟩ := List.cons.inj hlines
      simp only [memberLine, String.append_assoc] at hline
      rw [append_glue_inj (c := ':') rfl (not_mem_of_isNameLike h.1.name (by decide))
        (not_mem_of_isNameLike h'.1.name (by decide)), String.append_left_inj] at hline
      rw [List.map_cons, List.map_cons, hline.1, hline.2, ih h.2 h'.2 hlines]

/-- What stands behind the lines of an interface does not matter. -/
theorem interfaceLines_inj {i i' : Interface} (h : i.IsPlainCode) (h' : i'.IsPlainCode) {after after' : List String}
    (hlines : interfaceLines i none ++ after = interfaceLines i' none ++ after') :
    i.name = i'.name ∧ i.entries = i'.entries ∧ after = after' := by
  rw [interfaceLines_of_plain h.plain, interfaceLines_of_plain h'.plain, List.cons_append, List.cons_append,
    List.append_assoc, List.append_assoc, List.singleton_append, List.singleton_append] at hlines
  obtain ⟨hname, hlines⟩ := List.cons.inj hlines
  rw [String.append_left_inj, String.append_right_inj] at hname
  obtain ⟨hmembers, hafter⟩ := indent_brace_inj.mp hlines
  exact ⟨hname, entries_of_memberLine h.members h'.members hmembers, hafter⟩

theorem isCode_indent {width : Nat} {ls : List String} (h : ∀ l ∈ ls, isCode l = true) :
    ∀ l ∈ indent width ls, isCode l = true :=
  List.forall_mem_map.mpr fun l hl => (isCode_indentLine width l).trans (h l hl)

theorem isCode_interfaceLines {i : Interface} (h : i.IsPlainCode) :
    ∀ l ∈ interfaceLines i none, isCode l = true := by
  have hmembers : ∀ l ∈ i.members.map memberLine, isCode l = true := by
    refine List.forall_mem_map.mpr fun m hm => ?_
    simp +decide [memberLine, isCode_append, isCode_of_isNameLike (h.members m hm).name, (h.members m hm).type]
  rw [interfaceLines_of_plain h.plain, List.forall_mem_cons, List.forall_mem_append]
  refine ⟨?_, isCode_indent hmembers, by simp +decide⟩
  simp +decide [isCode_append, isCode_of_isNameLike h.name]

/-! ### Result fields -/

theorem isCode_resultFieldsLines {fields : List ResultField} (h : ResultField.AllCode fields) :
    ∀ l ∈ resultFieldsLines fields, isCode l = true := by
  induction fields using ResultField.listInduction with
  | nil => exact fun l hl => nomatch hl
  | leaf name e fs ih =>
    obtain ⟨⟨hname, htype⟩, hfs⟩ := h
    rw [resultFieldsLines, List.forall_mem_append]
    refine ⟨?_, ih hfs⟩
    simp +decide [resultFieldLines, isCode_append, isCode_of_isNameLike hname, htype]
  | composite name members type fields fs ihbelow ih =>
    obtain ⟨⟨hname, htype, hfields⟩, hfs⟩ := h
    rw [resultFieldsLines, List.forall_mem_append]
    refine ⟨?_, ih hfs⟩
    have hname := isCode_of_isNameLike hname
    rw [resultFieldLines, List.forall_mem_append, List.forall_mem_append]
    refine ⟨⟨?_, isCode_indent (ihbelow hfields)⟩, ?_⟩
    · simp +decide [isCode_append, hname]
    · simp +decide [isCode_append, hname, htype]

/-- The line of an alias says its name and its type. -/
theorem typeLine_inj {name name' type type' : String} (h : isNameLike name = true) (h' : isNameLike name' = true) :
    "export type " ++ name ++ " = " ++ type ++ ";" = "export type " ++ name' ++ " = " ++ type' ++ ";" ↔
      name = name' ∧ type = type' := by
  simp only [String.append_assoc, String.append_right_inj]
  rw [append_glue_inj (c := ' ') rfl (not_mem_of_isNameLike h (by decide))
    (not_mem_of_isNameLike h' (by decide)), String.append_left_inj]

/-- The keywords tell a leaf from a field with a namespace. -/
theorem typeLine_ne_spaceLine (name name' type : String) :
    "export type " ++ name ++ " = " ++ type ++ ";" ≠ "export namespace " ++ name' ++ " \x7b" := by
  intro h
  have hfront := congrArg (·.toList.take 8) h
  simp at hfront

/-- The lines of result fields show their names and types, level by level. -/
theorem allShown_of_lines {fields fields' : List ResultField} (h : ResultField.AllCode fields)
    (h' : ResultField.AllCode fields') (hlines : resultFieldsLines fields = resultFieldsLines fields') :
    ResultField.allShown fields = ResultField.allShown fields' := by
  induction fields using ResultField.listInduction generalizing fields' with
  | nil =>
    cases fields' with
    | nil => rfl
    | cons f fs => cases f <;> cases hlines
  | leaf name e fs ih =>
    obtain ⟨⟨hname, htype⟩, hfs⟩ := h
    cases fields' with
    | nil => cases hlines
    | cons f' fs' =>
      cases f' with
      | leaf name' e' =>
        obtain ⟨hline, hrest⟩ := List.cons.inj hlines
        obtain ⟨rfl, htypes⟩ := (typeLine_inj hname h'.1.1).mp hline
        rw [ResultField.allShown, ResultField.allShown, ResultField.shown, ResultField.shown, htypes,
          ih hfs h'.2 hrest]
      | composite name' members' type' below' =>
        exact absurd (List.cons.inj hlines).1 (typeLine_ne_spaceLine _ _ _)
  | composite name members type below fs ihbelow ih =>
    obtain ⟨⟨hname, htype, hbelow⟩, hfs⟩ := h
    cases fields' with
    | nil => cases hlines
    | cons f' fs' =>
      cases f' with
      | leaf name' e' => exact absurd (List.cons.inj hlines).1.symm (typeLine_ne_spaceLine _ _ _)
      | composite name' members' type' below' =>
        obtain ⟨⟨hname', -, hbelow'⟩, hfs'⟩ := h'
        simp only [resultFieldsLines, resultFieldLines, List.append_assoc, List.cons_append, List.nil_append,
          List.cons.injEq] at hlines
        obtain ⟨hinside, hlines⟩ := indent_brace_inj.mp hlines.2
        obtain ⟨hline, hrest⟩ := List.cons.inj hlines
        obtain ⟨rfl, htypes⟩ := (typeLine_inj hname hname').mp hline
        rw [ResultField.allShown, ResultField.allShown, ResultField.shown, ResultField.shown, htypes,
          ihbelow hbelow hbelow' hinside, ih hfs hfs' hrest]

/-! ### Operations -/

/-- The lines of an operation behind the one with its text. -/
def operationRest (op : Operation) : List String :=
  "" :: (interfaceLines op.selection none ++ "" :: ("export declare namespace " ++ op.space.name ++ " \x7b") ::
    (indent 2 (interfaceLines op.space.arguments none ++ resultFieldsLines op.space.fields) ++ ["\x7d"]))

theorem unlines_operationLines (op : Operation) (after : String) :
    unlines (operationLines op) ++ after = "export const " ++ (op.name ++ (" = \x60" ++
      (templateText op.signature ++ ("\x60" ++ (";\n" ++ (unlines (operationRest op) ++ after)))))) := by
  have hlines : operationLines op =
      ("export const " ++ op.name ++ " = \x60" ++ templateText op.signature ++ "\x60;") :: operationRest op := by
    simp [operationLines, operationRest]
  have hmark : "\x60;" = "\x60" ++ ";" := rfl
  have hend : ";\n" = ";" ++ "\n" := rfl
  rw [hlines, unlines_cons, hmark, hend]
  simp only [String.append_assoc]

theorem isCode_operationRest {op : Operation} (h : op.IsCode) : ∀ l ∈ operationRest op, isCode l = true := by
  have hspace : isCode ("export declare namespace " ++ op.space.name ++ " \x7b") = true := by
    simp +decide [isCode_append, isCode_of_isNameLike h.space]
  have hbody : ∀ l ∈ interfaceLines op.space.arguments none ++ resultFieldsLines op.space.fields,
      isCode l = true :=
    List.forall_mem_append.mpr ⟨isCode_interfaceLines h.arguments, isCode_resultFieldsLines h.fields⟩
  simp only [operationRest, List.forall_mem_cons, List.forall_mem_append]
  exact ⟨rfl, isCode_interfaceLines h.selection, rfl, hspace, isCode_indent hbody, rfl, nofun⟩

/-- The text of an operation determines what it shows and where it ends. -/
theorem shown_of_unlines {op op' : Operation} (h : op.IsCode) (h' : op'.IsCode) {after after' : String}
    (htext : unlines (operationLines op) ++ after = unlines (operationLines op') ++ after') :
    op.shown = op'.shown ∧ after = after' := by
  rw [unlines_operationLines, unlines_operationLines, String.append_right_inj,
    append_glue_inj (c := ' ') rfl (not_mem_of_isNameLike h.name (by decide))
      (not_mem_of_isNameLike h'.name (by decide)), templateText_inj, String.append_right_inj] at htext
  obtain ⟨hname, hsignature, htext⟩ := htext
  -- the text of the operation is read, so that only lines of code are left
  have hpieces := congrArg (Text.pieces '\n') htext
  rw [pieces_unlines_append fun l hl => break_not_mem_of_isCode (isCode_operationRest h l hl),
    pieces_unlines_append fun l hl => break_not_mem_of_isCode (isCode_operationRest h' l hl)] at hpieces
  simp only [operationRest, List.cons_append, List.append_assoc, List.nil_append] at hpieces
  obtain ⟨-, hselection, hlines⟩ := interfaceLines_inj h.selection h'.selection (List.cons.inj hpieces).2
  obtain ⟨hspace, hlines⟩ := List.cons.inj (List.cons.inj hlines).2
  rw [String.append_left_inj, String.append_right_inj] at hspace
  obtain ⟨hbody, hafter⟩ := indent_brace_inj.mp hlines
  obtain ⟨-, harguments, hfields⟩ := interfaceLines_inj h.arguments h'.arguments hbody
  have hfields := allShown_of_lines h.fields h'.fields hfields
  refine ⟨?_, Text.pieces_inj.mp hafter⟩
  simp only [Operation.shown, hname, hsignature, hselection, hspace, harguments, hfields]

theorem unlines_paragraphs (block : List String) (blocks : List (List String)) :
    unlines (paragraphs (block :: blocks)) =
      unlines block ++ if blocks = [] then "" else "\n" ++ unlines (paragraphs blocks) := by
  cases blocks with
  | nil => simp [paragraphs]
  | cons b bs => simp [paragraphs, unlines_append, unlines_cons]

theorem head?_operations (op : Operation) (ops : List Operation) :
    (unlines (paragraphs ((op :: ops).map operationLines))).toList.head? = some 'e' := by
  rw [List.map_cons, unlines_paragraphs, unlines_operationLines]
  simp

/-- The texts of operations behind one another determine what each of them shows. -/
theorem shown_of_paragraphs {ops ops' : List Operation} (h : ∀ op ∈ ops, op.IsCode)
    (h' : ∀ op ∈ ops', op.IsCode)
    (htext : unlines (paragraphs (ops.map operationLines)) = unlines (paragraphs (ops'.map operationLines))) :
    ops.map (·.shown) = ops'.map (·.shown) := by
  induction ops generalizing ops' with
  | nil =>
    cases ops' with
    | nil => rfl
    | cons op' ops' =>
      have hhead := head?_operations op' ops'
      rw [← htext] at hhead
      cases hhead
  | cons op ops ih =>
    cases ops' with
    | nil =>
      have hhead := head?_operations op ops
      rw [htext] at hhead
      cases hhead
    | cons op' ops' =>
      rw [List.forall_mem_cons] at h h'
      rw [List.map_cons, List.map_cons, unlines_paragraphs, unlines_paragraphs] at htext
      obtain ⟨hop, hafter⟩ := shown_of_unlines h.1 h'.1 htext
      have hops : ops.map (·.shown) = ops'.map (·.shown) := by
        cases ops with
        | nil =>
          cases ops' with
          | nil => rfl
          | cons _ _ => simp at hafter
        | cons _ _ =>
          cases ops' with
          | nil => simp at hafter
          | cons _ _ => exact ih h.2 h'.2 (by simpa using hafter)
      rw [List.map_cons, List.map_cons, hop, hops]

/-! ### Imports -/

theorem pieces_joinWith_comma {n : String} {names : List String} (h : ∀ m ∈ n :: names, isName m = true)
    {front : String} (hfront : ',' ∉ front.toList) :
    Text.pieces ',' (front ++ Text.joinWith ", " (n :: names)) = (front ++ n) :: names.map (" " ++ ·) := by
  have hcomma {front n : String} (hfront : ',' ∉ front.toList) (hn : isName n = true) :
      ',' ∉ (front ++ n).toList := by
    have hname := not_mem_of_isNameLike (isNameLike_of_isName hn) (c := ',') (by decide)
    simp [hfront, hname]
  induction names generalizing front n with
  | nil =>
    have hn := hcomma hfront (h n List.mem_cons_self)
    rw [Text.joinWith, List.foldl_nil, Text.pieces_eq_singleton hn, List.map_nil]
  | cons m names ih =>
    rw [List.forall_mem_cons] at h
    have htext : front ++ Text.joinWith ", " (n :: m :: names) =
        (front ++ n) ++ (", " ++ Text.joinWith ", " (m :: names)) := by
      rw [Text.joinWith_cons_cons, String.append_assoc, String.append_assoc]
    have hrest : (", " ++ Text.joinWith ", " (m :: names)).toList =
        ',' :: (" " ++ Text.joinWith ", " (m :: names)).toList := by
      simp
    rw [htext, Text.pieces_append _ hrest, Text.pieces_eq_singleton (hcomma hfront h.1), ih h.2 (by decide),
      List.singleton_append, List.map_cons]

/-- A list of names says what the names are. -/
theorem joinWith_comma_inj {names names' : List String} (hne : names ≠ []) (hne' : names' ≠ [])
    (h : ∀ n ∈ names, isName n = true) (h' : ∀ n ∈ names', isName n = true)
    (hjoined : Text.joinWith ", " names = Text.joinWith ", " names') : names = names' := by
  obtain ⟨n, names, rfl⟩ := List.exists_cons_of_ne_nil hne
  obtain ⟨n', names', rfl⟩ := List.exists_cons_of_ne_nil hne'
  have hempty : ',' ∉ "".toList := by decide
  have hpieces := congrArg (fun t => Text.pieces ',' ("" ++ t)) hjoined
  rw [pieces_joinWith_comma h hempty, pieces_joinWith_comma h' hempty, String.empty_append,
    String.empty_append, List.cons.injEq] at hpieces
  have hrest := List.map_injective_iff.mpr (fun _ _ heq => (String.append_right_inj " ").mp heq) hpieces.2
  rw [hpieces.1, hrest]

/-- Joined names are written with the characters of names and what is put between them. -/
theorem not_mem_joinWith {glue : String} {names : List String} (h : ∀ n ∈ names, isName n = true) {c : Char}
    (hc : isNameContinue c = false) (hglue : c ∉ glue.toList) : c ∉ (Text.joinWith glue names).toList := by
  have hother : ∀ d ∈ glue.toList, d ≠ c := by
    rintro d hd rfl
    exact hglue hd
  have hnames : ∀ n ∈ names, ∀ d ∈ n.toList, d ≠ c := by
    rintro n hn d hd rfl
    exact not_mem_of_isNameLike (isNameLike_of_isName (h n hn)) hc hd
  exact fun hmem => Text.forall_mem_joinWith hother hnames c hmem rfl

theorem brace_not_mem_joinWith {names : List String} (h : ∀ n ∈ names, isName n = true) :
    '\x7d' ∉ (Text.joinWith ", " names ++ " ").toList := by
  rw [String.toList_append, List.mem_append, not_or]
  exact ⟨not_mem_joinWith h (by decide) (by decide), by decide⟩

/-- The import names what it names, and the text behind it is told apart from it. -/
theorem statement_inj {names names' : List String} (h : ∀ n ∈ names, isName n = true)
    (h' : ∀ n ∈ names', isName n = true) {module after after' : String} (hafter : after.toList.head? ≠ some 'i')
    (hafter' : after'.toList.head? ≠ some 'i')
    (htext : Imports.statement names module ++ after = Imports.statement names' module ++ after') :
    names = names' ∧ after = after' := by
  have hstatement {names : List String} (hne : names ≠ []) (after : String) :
      Imports.statement names module ++ after = "import \x7b " ++ (Text.joinWith ", " names ++ " " ++
        ("\x7d from './" ++ (module ++ "';\n\n" ++ after))) := by
    have hglue : " \x7d from './" = " " ++ "\x7d from './" := rfl
    rw [Imports.statement, if_neg (by simpa using hne), hglue]
    simp only [String.append_assoc]
  have hnone (after : String) : Imports.statement [] module ++ after = after := String.empty_append
  by_cases hnames : names = []
  · subst hnames
    by_cases hnames' : names' = []
    · subst hnames'
      exact ⟨rfl, by simpa only [hnone] using htext⟩
    · rw [hnone, hstatement hnames'] at htext
      simp [htext] at hafter
  · by_cases hnames' : names' = []
    · subst hnames'
      rw [hnone, hstatement hnames] at htext
      simp [← htext] at hafter'
    · rw [hstatement hnames, hstatement hnames', String.append_right_inj,
        append_glue_inj (c := '\x7d') rfl (brace_not_mem_joinWith h) (brace_not_mem_joinWith h'),
        String.append_left_inj, String.append_right_inj] at htext
      exact ⟨joinWith_comma_inj hnames hnames' h h' htext.1, htext.2⟩

end Rendering

/-! ### Compiled operations -/

section

variable {s : Schema} {sdl text name signature : String} {order : DisplayOrder}
  {field? : String → Option FieldType}

theorem allCode_of_resultsOn (hs : s.Named)
    (hfields : ∀ n (type : FieldType), field? n = some type → isName type.name = true)
    {xs : List Selection} {fields : List ResultField} (h : s.resultsOn field? xs = some fields)
    (hnamed : Selection.AllNamed xs) : ResultField.AllCode fields := by
  induction h using Schema.resultsInduction with
  | nil field? => exact trivial
  | field field? label name args dirs below f xs fs h hxs hresult ihbelow ih =>
    obtain ⟨⟨hlabel, hname, hbelow⟩, hnamed⟩ := hnamed
    have hresultName := isNameLike_of_isName (isName_getD hlabel hname)
    refine ⟨?_, ih hfields hnamed⟩
    cases hresult with
    | typename => exact ⟨hresultName, by decide⟩
    | leaf hne htype => exact ⟨hresultName, FieldType.isCode_expression (hfields _ _ htype) true⟩
    | composite hne htype hinside =>
      have hmembers := Member.isCode_flatMembers hresultName (isName_of_mem_results hinside hbelow)
      exact ⟨hresultName, isCode_compositeText hmembers _,
        ihbelow _ rfl hinside (fun _ _ => isName_of_outputField? hs) hbelow⟩

theorem isName_of_rootField? (hs : s.Named) {k : OperationKind} {n : String} {type : FieldType}
    (h : s.rootField? k n = some type) : isName type.name = true := by
  obtain ⟨root, -, h⟩ := Option.bind_eq_some_iff.mp h
  exact isName_of_anyField? hs h

theorem isCode_compileNamed (hs : s.Named) {d : OperationDefinition} {op : Operation} (hd : d.Named)
    (hname : d.name = some name) (h : compileNamed s name signature d = .ok op) : op.IsCode := by
  obtain ⟨-, hresults⟩ := imports_compileNamed hd h
  have hrootFields : ∀ n (type : FieldType), s.rootField? d.kind n = some type → isName type.name = true :=
    fun _ _ => isName_of_rootField? hs
  have hnames := isName_of_mem_results hresults hd.selections
  have hfields := allCode_of_resultsOn hs hrootFields hresults hd.selections
  rw [Schema.names_resultsOn hresults] at hnames
  obtain ⟨root, -, h⟩ := bind_eq_ok_iff.mp h
  obtain ⟨names, hselected, h⟩ := bind_eq_ok_iff.mp h
  obtain ⟨fields, -, h⟩ := bind_eq_ok_iff.mp h
  cases h
  rw [← Schema.names_of_selectedNames hselected] at hnames
  have hname := hd.name name hname
  have hspace := isNameLike_operationNamespaceName hname d.kind
  refine ⟨isNameLike_operationTypeName hname d.kind, ?_, hspace, ?_, hfields⟩
  · exact ⟨⟨isNameLike_operationTypeName hname d.kind, Member.isCode_flatMembers hspace hnames⟩,
      List.forall_mem_map.mpr fun _ _ => rfl⟩
  · have harguments : isNameLike "Arguments" = true := by decide
    refine ⟨⟨harguments, List.forall_mem_map.mpr fun v hv => ?_⟩, List.forall_mem_map.mpr fun _ _ => rfl⟩
    obtain ⟨hvariable, htype⟩ := hd.variableNames v hv
    exact ⟨isNameLike_of_isName hvariable, TypeRef.isCode_expression htype true⟩

/-- All that is written for operations of an accepted schema is code, but for their texts. -/
theorem isCode_compile {c : Compilation} (hs : buildSchema sdl = .ok s) (hc : compile s order text = .ok c) :
    ∀ op ∈ c.operations, op.IsCode := by
  obtain ⟨-, -, hops⟩ := compile_eq_ok hc
  refine forall_mem_of_forall₂ hops ?_
  rintro d op ⟨hd, name, signature, hname, hop⟩
  exact isCode_compileNamed (named_of_buildSchema hs) hd hname hop

theorem isName_of_mem_imports {c : Compilation} (hs : buildSchema sdl = .ok s)
    (hc : compile s order text = .ok c) : ∀ n ∈ c.imports, isName n = true := by
  obtain ⟨-, -, hops⟩ := compile_eq_ok hc
  have hnamed : ∀ d ∈ operationsOf text, d.Named :=
    forall_mem_of_forall₂ hops.flip fun _ _ ⟨hd, _⟩ => hd
  exact forall_mem_imports hc (fun _ _ _ => isName_of_anyField? (named_of_buildSchema hs))
    fun d hd v hv => ((hnamed d hd).variableNames v hv).2

end

/-- A file for operations loses nothing of what it shows. Two compilations, of whatever schemas and documents,
that give one text under one module name have the same imports, and their operations agree one by one in name,
text, flat selection, arguments and namespace, down to the last field. -/
theorem operationsFile_determines {sdl sdl' text text' : String} {s s' : Schema} {order order' : DisplayOrder}
    {c c' : Compilation} (hs : buildSchema sdl = .ok s) (hs' : buildSchema sdl' = .ok s')
    (hc : compile s order text = .ok c) (hc' : compile s' order' text' = .ok c') {module : String}
    (h : operationsFile c module none = operationsFile c' module none) :
    c.imports = c'.imports ∧ c.operations.map (·.shown) = c'.operations.map (·.shown) := by
  have hafter (ops : List Operation) :
      (unlines (paragraphs (ops.map operationLines))).toList.head? ≠ some 'i' := by
    cases ops with
    | nil => decide
    | cons op ops =>
      rw [head?_operations]
      decide
  have hheader : headerText none = "" := rfl
  rw [operationsFile, operationsFile, hheader, String.empty_append, String.empty_append] at h
  obtain ⟨himports, htext⟩ := statement_inj (isName_of_mem_imports hs hc) (isName_of_mem_imports hs' hc')
    (hafter c.operations) (hafter c'.operations) h
  exact ⟨himports, shown_of_paragraphs (isCode_compile hs hc) (isCode_compile hs' hc') htext⟩

/-- A text with back quotes and the start of a declaration, in documents that differ around it. -/
theorem operationsFile_determines_of_tags :
    let sdl := "type Query \x7b a: Tag b: Int \x7d enum Tag \x7b NEW \x7d"
    let sdl' := "enum Tag \x7b OLD \x7d type Query \x7b a: Tag \x7d"
    let text := "query Q($s: String = \"\x60;\\n\\nexport const $\x7b\") \x7b x: a \x7d"
    ∃ s s' c c', buildSchema sdl = .ok s ∧ buildSchema sdl' = .ok s' ∧ compile s .byKind text = .ok c ∧
      compile s' .asIs ("# " ++ text ++ "\n" ++ text) = .ok c' ∧
      operationsFile c "schema" none = operationsFile c' "schema" none ∧
      c.imports = ["Tag"] ∧ c'.imports = c.imports ∧
      c'.operations.map (·.shown) = c.operations.map (·.shown) ∧
      c.operations.map (·.signature) = [text] := by
  intro sdl sdl' text
  have hrun : ((buildSchema sdl).toOption.bind fun s => (buildSchema sdl').toOption.bind fun s' =>
      (compile s .byKind text).toOption.bind fun c =>
        (compile s' .asIs ("# " ++ text ++ "\n" ++ text)).toOption.map fun c' =>
          (c.imports, c.operations.map (·.signature),
            decide (operationsFile c "schema" none = operationsFile c' "schema" none))) =
      some (["Tag"], [text], true) := by
    decide +kernel
  obtain ⟨s, hs, hrun⟩ := Option.bind_eq_some_iff.mp hrun
  obtain ⟨s', hs', hrun⟩ := Option.bind_eq_some_iff.mp hrun
  obtain ⟨c, hc, hrun⟩ := Option.bind_eq_some_iff.mp hrun
  obtain ⟨c', hc', hrun⟩ := Option.map_eq_some_iff.mp hrun
  rw [toOption_eq_some_iff] at hs hs' hc hc'
  simp only [Prod.mk.injEq, decide_eq_true_eq] at hrun
  obtain ⟨himports, hsignatures, hsame⟩ := hrun
  obtain ⟨hnames, hshown⟩ := operationsFile_determines hs hs' hc hc' hsame
  exact ⟨s, s', c, c', hs, hs', hc, hc', hsame, himports, hnames.symm, hshown.symm, hsignatures⟩

end GraphDecl
