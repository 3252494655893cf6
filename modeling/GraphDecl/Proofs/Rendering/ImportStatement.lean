import GraphDecl.Proofs.Files.WrittenFiles
import GraphDecl.Proofs.Rendering.OperationsFile
import GraphDecl.Proofs.TypeScript.Literals

/-!
The import at the top of a file for operations. It names the declared types that the operations need, in their order,
and the module that it takes them from is the file for the schema, as long as the name of that file can stand in
single quotes as it is.
-/

namespace GraphDecl

open Rendering TypeScript

/-! ### Reading imports -/

namespace TypeScript

/-- The names in front of a closing brace, with commas between them. -/
def listedNames? : List Symbol → Option (List String)
  | [.word n, .mark '\x7d', .word source] => if isName n ∧ source = "from" then some [n] else none
  | .word n :: .mark ',' :: r => if isName n then (listedNames? r).map (n :: ·) else none
  | _ => none

def importedNames? : List Symbol → Option (List String)
  | .word verb :: .mark '\x7b' :: r => if verb = "import" then listedNames? r else none
  | _ => none

/-- Reads an import: the names, the value of the string in single quotes that they come from, and what stands behind
the string. -/
def readImport (cs : List Char) : Option (List String × List Nat × List Char) := do
  let names ← importedNames? (scan (cs.takeWhile (· != '\x27')))
  let (source, rest) ← readString ((cs.dropWhile (· != '\x27')).drop 1)
  return (names, source, rest)

/-- Names with commas between them are read back as they are. -/
theorem listedNames?_joinWith {names : List String} (hne : names ≠ []) (h : ∀ n ∈ names, isName n = true) :
    listedNames? (scan ((Text.joinWith ", " names).toList ++ " \x7d from ".toList)) = some names := by
  induction names with
  | nil => exact absurd rfl hne
  | cons n names ih =>
    rw [List.forall_mem_cons] at h
    have hname := symbols_name h.1
    rw [symbols] at hname
    cases names with
    | nil =>
      have hend : scan " \x7d from ".toList = [.mark '\x7d', .word "from"] := by decide
      have hblank : " \x7d from ".toList = ' ' :: "\x7d from ".toList := rfl
      rw [hblank, scan_append (by decide), ← hblank, hend]
      simp [Text.joinWith, hname, listedNames?, h.1]
    | cons m names =>
      have htext : (Text.joinWith ", " (n :: m :: names)).toList ++ " \x7d from ".toList =
          n.toList ++ ',' :: ' ' :: ((Text.joinWith ", " (m :: names)).toList ++ " \x7d from ".toList) := by
        simp [Text.joinWith_cons_cons]
      rw [htext, scan_append (by decide), scan_mark (by decide) (by decide), scan_blank, hname,
        List.singleton_append]
      rw [listedNames?, if_pos h.1, ih (by simp) h.2, Option.map_some]

end TypeScript

def importClause (names : List String) : String :=
  "import \x7b " ++ (Text.joinWith ", " names ++ " \x7d from ")

theorem importedNames?_importClause {names : List String} (hne : names ≠ []) (h : ∀ n ∈ names, isName n = true) :
    importedNames? (scan (importClause names).toList) = some names := by
  have htext : (importClause names).toList =
      "import ".toList ++ '\x7b' :: ' ' :: ((Text.joinWith ", " names).toList ++ " \x7d from ".toList) := by
    simp [importClause]
  have himport : scan "import ".toList = [.word "import"] := by decide
  rw [htext, scan_append (by decide), scan_mark (by decide) (by decide), scan_blank, himport, List.singleton_append,
    importedNames?, if_pos rfl, listedNames?_joinWith hne h]

theorem quote_not_mem_importClause {names : List String} (h : ∀ n ∈ names, isName n = true) :
    '\x27' ∉ (importClause names).toList := by
  have hnames : '\x27' ∉ (Text.joinWith ", " names).toList := not_mem_joinWith h (by decide) (by decide)
  simp [importClause, hnames]

/-- An import is read as its names and its string. -/
theorem readImport_statement {names : List String} (hne : names ≠ []) (h : ∀ n ∈ names, isName n = true)
    (module : String) (after : List Char) :
    readImport ((Imports.statement names module).toList ++ after) =
      (readString (("./" ++ module).toList ++ '\x27' :: ';' :: '\n' :: '\n' :: after)).map
        fun (source, rest) => (names, source, rest) := by
  have hclause : ∀ c ∈ (importClause names).toList, (c != '\x27') = true := by
    intro c hc
    rw [bne_iff_ne]
    rintro rfl
    exact quote_not_mem_importClause h hc
  have htext : (Imports.statement names module).toList ++ after = (importClause names).toList ++
      '\x27' :: (("./" ++ module).toList ++ '\x27' :: ';' :: '\n' :: '\n' :: after) := by
    rw [Imports.statement, if_neg (by simpa using hne)]
    simp [importClause]
  rw [readImport, htext, List.takeWhile_append_of_pos hclause, List.dropWhile_append_of_pos hclause,
    List.takeWhile_cons_of_neg (by simp), List.dropWhile_cons_of_neg (by simp), List.append_nil, List.drop_one,
    List.tail_cons, importedNames?_importClause hne h]
  cases readString (("./" ++ module).toList ++ '\x27' :: ';' :: '\n' :: '\n' :: after) <;> rfl

/-! ### The module of the schema -/

theorem PathText.stemLength?_append {module : List Char} (hne : module ≠ []) :
    stemLength? (module ++ ['.', 't', 's']) = some module.length := by
  have hending : ((module ++ ['.', 't', 's']).reverse.takeWhile (· ≠ '.')).length = 2 := by
    rw [List.reverse_append]
    rfl
  have hpos := List.length_pos_of_ne_nil hne
  simp only [stemLength?, hending, List.length_append, List.length_cons, List.length_nil]
  rw [if_pos (by omega)]
  rfl

/-- The module of a file is what its name has in front of `.ts`. -/
theorem Options.IsFileName.exists_module {n : String} (h : IsFileName n) :
    ∃ module, n = module ++ ".ts" ∧ PathText.stem n = module := by
  obtain ⟨module, hne, hn⟩ := h.ending
  have hmodule : module.toList ≠ [] := fun hnil => hne (String.toList_eq_nil_iff.mp hnil)
  have htext : (PathText.name n).toList = module.toList ++ ['.', 't', 's'] := by
    rw [h.name, hn]
    simp
  refine ⟨module, hn, ?_⟩
  simp [PathText.stem, htext, PathText.stemLength?_append hmodule]

/-- Put between quotes as it is, a module specifier is read as what it says if none of its characters ends the
string, breaks the line or starts an escape. -/
theorem readImport_statement_iff {names : List String} (hne : names ≠ []) (h : ∀ n ∈ names, isName n = true)
    (module : String) (after : List Char) :
    (∃ rest, readImport ((Imports.statement names module).toList ++ after) =
        some (names, units ("./" ++ module).toList, rest)) ↔
      ∀ c ∈ module.toList, isPlain c = true := by
  have hdot : (∀ c ∈ ("./" ++ module).toList, isPlain c = true) ↔ ∀ c ∈ module.toList, isPlain c = true := by
    have hfront : ∀ c ∈ "./".toList, isPlain c = true := List.all_eq_true.mp (by decide)
    rw [String.toList_append, List.forall_mem_append, and_iff_right hfront]
  rw [readImport_statement hne h, ← hdot]
  constructor
  · rintro ⟨rest, hread⟩
    obtain ⟨⟨source, rest'⟩, hread, hsource⟩ := Option.map_eq_some_iff.mp hread
    cases hsource
    rcases plain_or_lt_of_readString hread with ⟨hplain, -⟩ | hlt
    · exact hplain
    · exact absurd hlt (Nat.lt_irrefl _)
  · intro hplain
    exact ⟨_, congrArg _ (readString_of_plain hplain _)⟩

/-- The operations take their types from the name of the schema file without its ending. -/
theorem exists_module_of_check {given : Options.Settings} {o : Options} (ho : Options.check given = .ok o)
    (directory : String) (header : Option String) (c : Compilation) :
    ∃ module, o.schemaFileName = module ++ ".ts" ∧
      (o.layout directory header).operationsText c = headerText header ++
        (Imports.statement c.imports module ++ unlines (paragraphs (c.operations.map operationLines))) := by
  obtain ⟨module, hname, hstem⟩ := (Options.isFileName_of_check ho).1.exists_module
  refine ⟨module, hname, ?_⟩
  rw [Layout.operationsText, Layout.schemaModule, Options.layout, hstem, operationsFile, String.append_assoc]

/-- The import of an operations file names exactly the declared types that the operations need, in order. For every
name of the schema file that options may have, the string that it names them from is `./` and that name without its
last `.ts`, if and only if the name has no quote, backslash or line break. -/
theorem import_points_at_schema_iff {given : Options.Settings} {o : Options} (ho : Options.check given = .ok o)
    {sdl text : String} {s : Schema} {order : DisplayOrder} {c : Compilation} (hs : buildSchema sdl = .ok s)
    (hc : compile s order text = .ok c) (himports : c.imports ≠ []) (directory : String) (header : Option String) :
    ∃ module body, o.schemaFileName = module ++ ".ts" ∧
      (o.layout directory header).operationsText c = headerText header ++ body ∧
      ((∃ rest, readImport body.toList = some (c.imports, units ("./" ++ module).toList, rest)) ↔
        ∀ x ∈ o.schemaFileName.toList, isPlain x = true) := by
  obtain ⟨module, hname, htext⟩ := exists_module_of_check ho directory header c
  refine ⟨module, _, hname, htext, ?_⟩
  have hplain : (∀ x ∈ (module ++ ".ts").toList, isPlain x = true) ↔ ∀ x ∈ module.toList, isPlain x = true := by
    have hending : ∀ x ∈ ".ts".toList, isPlain x = true := List.all_eq_true.mp (by decide)
    rw [String.toList_append, List.forall_mem_append, and_iff_left hending]
  rw [String.toList_append, readImport_statement_iff himports (isName_of_mem_imports hs hc), hname, hplain]

/-- A quote in the name of the file ends the string of the import. -/
theorem import_of_quoted_name :
    let given : Options.Settings := [("schema", .list [.text "s"]), ("output_path", .text "/o"),
      ("base_path", .text "/"), ("schema_file_name", .text "it's.ts")]
    ∃ o s c rest, Options.check given = .ok o ∧
      buildSchema "type Query \x7b a: Tag \x7d enum Tag \x7b X \x7d" = .ok s ∧
      compile s o.display "query Q \x7b a \x7d" = .ok c ∧ o.schemaFileName = "it's" ++ ".ts" ∧ c.imports = ["Tag"] ∧
      readImport ((o.layout "/o" none).operationsText c).toList = some (c.imports, units "./it".toList, rest) := by
  intro given
  have hrun : ((Options.check given).toOption.bind fun o =>
      (buildSchema "type Query \x7b a: Tag \x7d enum Tag \x7b X \x7d").toOption.bind fun s =>
      (compile s o.display "query Q \x7b a \x7d").toOption.map fun c => (o.schemaFileName, c.imports)) =
      some ("it's.ts", ["Tag"]) := by
    decide +kernel
  obtain ⟨o, ho, hrun⟩ := Option.bind_eq_some_iff.mp hrun
  obtain ⟨s, hs, hrun⟩ := Option.bind_eq_some_iff.mp hrun
  obtain ⟨c, hc, hrun⟩ := Option.map_eq_some_iff.mp hrun
  rw [Prod.mk.injEq] at hrun
  rw [toOption_eq_some_iff] at ho hs hc
  have hfile : o.schemaFileName = "it's" ++ ".ts" := hrun.1
  obtain ⟨module, hname, htext⟩ := exists_module_of_check ho "/o" none c
  rw [hfile, String.append_left_inj] at hname
  subst hname
  have hplain : ∀ x ∈ "./it".toList, isPlain x = true := List.all_eq_true.mp (by decide)
  have hstring (after : List Char) : ("./" ++ "it's").toList ++ after = "./it".toList ++ '\x27' :: 's' :: after := by
    simp
  have hread : ∃ rest, readImport ((o.layout "/o" none).operationsText c).toList =
      some (c.imports, units "./it".toList, rest) := by
    rw [htext, headerText, String.empty_append, String.toList_append,
      readImport_statement (by simp [hrun.2]) (isName_of_mem_imports hs hc), hstring, readString_of_plain hplain]
    exact ⟨_, rfl⟩
  obtain ⟨rest, hread⟩ := hread
  exact ⟨o, s, c, rest, ho, hs, hc, hfile, hrun.2, hread⟩

/-- A name with a space and two dots, under a banner. -/
theorem import_points_at_schema_of_dots :
    let given : Options.Settings := [("schema", .list [.text "s"]), ("output_path", .text "/o"),
      ("base_path", .text "/"), ("schema_file_name", .text "my types.v2.ts")]
    let sdl := "type Query \x7b a(x: In): [Tag] \x7d input In \x7b n: Int \x7d enum Tag \x7b X \x7d"
    ∃ o s c body rest, Options.check given = .ok o ∧ buildSchema sdl = .ok s ∧
      compile s o.display "query Q($x: In) \x7b b: a(x: $x) \x7d" = .ok c ∧
      (o.layout "/o" (some "// made")).operationsText c = "// made\n\n" ++ body ∧
      readImport body.toList = some (["In", "Tag"], units "./my types.v2".toList, rest) := by
  intro given sdl
  have hrun : ((Options.check given).toOption.bind fun o => (buildSchema sdl).toOption.bind fun s =>
      (compile s o.display "query Q($x: In) \x7b b: a(x: $x) \x7d").toOption.map fun c =>
        (o.schemaFileName, c.imports)) =
      some ("my types.v2.ts", ["In", "Tag"]) := by
    decide +kernel
  obtain ⟨o, ho, hrun⟩ := Option.bind_eq_some_iff.mp hrun
  obtain ⟨s, hs, hrun⟩ := Option.bind_eq_some_iff.mp hrun
  obtain ⟨c, hc, hrun⟩ := Option.map_eq_some_iff.mp hrun
  rw [Prod.mk.injEq] at hrun
  rw [toOption_eq_some_iff] at ho hs hc
  have hfile : o.schemaFileName = "my types.v2" ++ ".ts" := hrun.1
  obtain ⟨module, body, hname, htext, hread⟩ :=
    import_points_at_schema_iff ho hs hc (by simp [hrun.2]) "/o" (some "// made")
  rw [hfile, String.append_left_inj] at hname
  subst hname
  rw [hfile, hrun.2] at hread
  obtain ⟨rest, hread⟩ := hread.mpr (List.all_eq_true.mp (by decide))
  exact ⟨o, s, c, body, rest, ho, hs, hc, htext, hread⟩

end GraphDecl
