import Mathlib.Data.List.Nodup
import GraphDecl.Options
import GraphDecl.Output
import GraphDecl.Proofs.Files.Changes
import GraphDecl.Proofs.Projection.Levels
import GraphDecl.Proofs.Text.Pieces

/-!
The files that a compilation is written to. With file names that options may have, each of them is found at its
path with the text that was made for it, and nothing else changes, unless both names are the same.
-/

namespace GraphDecl

/-! ### File names -/

namespace PathText

theorem slash_not_mem_of_name_eq {n : String} (h : name n = n) : '/' ∉ n.toList := by
  intro hslash
  have hne : (parts n).getLast?.getD "" ≠ "" := by
    rw [← name, h]
    rintro rfl
    cases hslash
  cases hlast : (parts n).getLast? with
  | none => simp [hlast] at hne
  | some last =>
    have hn : last = n := by
      rw [name, hlast] at h
      exact h
    subst hn
    have hpiece : last ∈ components last := List.mem_of_mem_filter (List.mem_of_getLast? hlast)
    exact Text.not_mem_of_mem_pieces hpiece hslash

/-- A file lies in the directory under its own name. -/
theorem getLast?_components_join (base : String) {n : String} (h : '/' ∉ n.toList) :
    (components (join base n)).getLast? = some n := by
  have hrelative : isAbsolute n = false := by
    rw [isAbsolute, beq_eq_false_iff_ne]
    intro hhead
    exact h (List.mem_of_head? hhead)
  have hbelow (base : List Char) {path : String} (hpath : path.toList = base ++ '/' :: n.toList) :
      (components path).getLast? = some n := by
    rw [components, Text.pieces, hpath, Text.splitAt_append, Text.splitAt_eq_singleton h, List.map_append,
      List.map_singleton, String.ofList_toList, List.getLast?_concat]
  rw [join, if_neg (by simp [hrelative])]
  split
  · next hbase =>
    rcases Bool.or_eq_true_iff.mp hbase with hbase | hbase
    · rw [String.isEmpty_iff.mp hbase, String.empty_append, components, Text.pieces_eq_singleton h]
      rfl
    · obtain ⟨front, hfront⟩ := List.getLast?_eq_some_iff.mp (beq_iff_eq.mp hbase)
      apply hbelow front
      simp [hfront]
  · apply hbelow base.toList
    simp

end PathText

namespace Options

/-- What a file is called: something in front of `.ts`, and no directory. -/
structure IsFileName (n : String) : Prop where
  ending : ∃ module, module ≠ "" ∧ n = module ++ ".ts"
  name : PathText.name n = n

theorem isFileName_of_checkFileName {option n : String} {v : Setting} (h : checkFileName option v = .ok n) :
    IsFileName n := by
  obtain ⟨text, -, h⟩ := bind_eq_ok_iff.mp h
  split at h
  · cases h
  · next hending =>
    split at h
    · cases h
    · next hname =>
      cases h
      rw [Bool.or_eq_true, not_or, Bool.not_eq_true', Bool.not_eq_false, beq_iff_eq,
        List.isSuffixOf_iff_suffix] at hending
      obtain ⟨⟨module, hmodule⟩, hne⟩ := hending
      have htext : n = String.ofList module ++ ".ts" := by
        rw [← String.toList_inj, String.toList_append, String.toList_ofList, hmodule]
      refine ⟨⟨String.ofList module, ?_, htext⟩, not_not.mp hname⟩
      intro hempty
      rw [hempty] at htext
      exact hne htext

theorem isFileName_of_optional {given : Settings} {option default n : String} (hdefault : IsFileName default)
    (h : optional given option default checkFileName = .ok n) : IsFileName n := by
  unfold optional at h
  split at h
  · exact isFileName_of_checkFileName h
  · cases h
    exact hdefault

/-- In options that are accepted, every value has passed its check. -/
theorem check_eq_ok {given : Settings} {o : Options} (h : check given = .ok o) :
    required given (sourcesOption given) checkSources = .ok o.schemaSources ∧
    optional given "operations" [] checkTexts = .ok o.operations ∧
    required given "output_path" checkPath = .ok o.outputPath ∧
    required given "base_path" checkPath = .ok o.basePath ∧
    optional given "display" .byKind checkDisplay = .ok o.display ∧
    optional given "schema_file_name" "schema.ts" checkFileName = .ok o.schemaFileName ∧
    optional given "operations_file_name" "operations.ts" checkFileName = .ok o.operationsFileName ∧
    optional given "template_dir" none (fun n => checkOptional (checkPath n)) = .ok o.templateDir ∧
    optional given "header" none (fun n => checkOptional (checkText n)) = .ok o.header := by
  unfold check at h
  dsimp only at h
  split at h
  · next h₁ h₂ h₃ h₄ h₅ h₆ h₇ h₈ h₉ =>
    cases h
    exact ⟨h₁, h₂, h₃, h₄, h₅, h₆, h₇, h₈, h₉⟩
  · cases h

/-- Names that have been checked are those of files in the directory of the layout. -/
theorem isFileName_of_check {given : Settings} {o : Options} (h : check given = .ok o) :
    IsFileName o.schemaFileName ∧ IsFileName o.operationsFileName := by
  obtain ⟨-, -, -, -, -, hschema, hoperations, -, -⟩ := check_eq_ok h
  have hdefaults : IsFileName "schema.ts" ∧ IsFileName "operations.ts" :=
    ⟨⟨⟨"schema", by decide, rfl⟩, by decide⟩, ⟨⟨"operations", by decide, rfl⟩, by decide⟩⟩
  exact ⟨isFileName_of_optional hdefaults.1 hschema, isFileName_of_optional hdefaults.2 hoperations⟩

/-- The file names of options that are accepted lead into no directory. -/
theorem slash_not_mem_of_check {given : Settings} {o : Options} (h : check given = .ok o) :
    '/' ∉ o.schemaFileName.toList ∧ '/' ∉ o.operationsFileName.toList := by
  obtain ⟨hschema, hoperations⟩ := isFileName_of_check h
  exact ⟨PathText.slash_not_mem_of_name_eq hschema.name, PathText.slash_not_mem_of_name_eq hoperations.name⟩

end Options

/-! ### Writing -/

namespace Layout

variable {l : Layout} {t t' : FileTree}

/-- A file is written at the place of its path, which ends with its name. -/
theorem exists_place_of_writeFile {file : String × String} {path : String} (hname : '/' ∉ file.1.toList)
    (h : (l.writeFile file).Succeeds t path t') :
    path = PathText.join l.directory file.1 ∧ ∃ place, t'.placeOf path = .ok place ∧
      t'.at? place = some (.file file.2.toUTF8) ∧ place.getLast? = some file.1 ∧
      FileTree.Keeps [place] t t' := by
  obtain ⟨_, u, hmake, hwrite⟩ := FileAction.succeeds_bind.mp h
  obtain ⟨_, v, hwrite, hpath⟩ := FileAction.succeeds_bind.mp hwrite
  obtain ⟨rfl, rfl⟩ := FileAction.succeeds_pure.mp hpath
  obtain ⟨place, hplace, hfile, hlast, hkeeps⟩ := FileAction.exists_place_of_writeBytes hwrite
  refine ⟨rfl, place, hplace, hfile, ?_, (FileAction.keeps_of_makeDirectory hmake).trans hkeeps⟩
  rw [hlast, PathText.getLast?_components_join _ hname]

/-- Files are written one after the other, each at a place that ends with its name. If no two of them have the
same name, all of them are there at the end. -/
theorem exists_places_of_writeFiles {files : List (String × String)} {paths : List String}
    (hnames : ∀ file ∈ files, '/' ∉ file.1.toList) (h : (files.mapM l.writeFile).Succeeds t paths t') :
    paths = files.map (fun file => PathText.join l.directory file.1) ∧
      ∃ places, List.Forall₂ (fun file place =>
        t'.placeOf (PathText.join l.directory file.1) = .ok place ∧ place.getLast? = some file.1 ∧
          ((files.map (·.1)).Nodup → t'.at? place = some (.file file.2.toUTF8))) files places ∧
        FileTree.Keeps places t t' := by
  induction files generalizing t paths with
  | nil =>
    obtain ⟨rfl, rfl⟩ := FileAction.succeeds_pure.mp h
    exact ⟨rfl, [], .nil, .refl _⟩
  | cons file files ih =>
    rw [List.forall_mem_cons] at hnames
    rw [List.mapM_cons] at h
    obtain ⟨path, u, hfirst, h⟩ := FileAction.succeeds_bind.mp h
    obtain ⟨rest, v, hrest, hpaths⟩ := FileAction.succeeds_bind.mp h
    obtain ⟨rfl, rfl⟩ := FileAction.succeeds_pure.mp hpaths
    obtain ⟨rfl, place, hplace, hfile, hlast, hkeeps⟩ := exists_place_of_writeFile hnames.1 hfirst
    obtain ⟨rfl, places, hfiles, hkeepsRest⟩ := ih hnames.2 hrest
    refine ⟨rfl, place :: places, .cons ⟨hkeepsRest.placeOf hplace, hlast, ?_⟩ ?_, hkeeps.trans hkeepsRest⟩
    · -- the names behind are others, so that no later file stands at the place
      intro hnodup
      have hlater : ∀ later ∈ files, later.1 ≠ file.1 := fun later hmem hname =>
        (List.nodup_cons.mp hnodup).1 (List.mem_map.mpr ⟨later, hmem, hname⟩)
      have hother : ∀ other ∈ places, other ≠ place := by
        refine forall_mem_of_forall₂ ((List.forall₂_and_left _ _).mpr ⟨hlater, hfiles⟩) ?_
        rintro later other ⟨hname, -, hotherLast, -⟩ rfl
        rw [hlast, Option.some.injEq] at hotherLast
        exact hname hotherLast.symm
      exact (hkeepsRest.files place (fun hmem => hother place hmem rfl) _).mpr hfile
    · exact hfiles.imp fun file place h =>
        ⟨h.1, h.2.1, fun hnodup => h.2.2 (List.nodup_cons.mp hnodup).2⟩

end Layout

def Options.layout (o : Options) (directory : String) (header : Option String) : Layout :=
  ⟨directory, o.schemaFileName, o.operationsFileName, header⟩

/-- Names of files differ unless there are operations and both names are the same. -/
theorem nodup_names_files_iff {l : Layout} {c : Compilation} :
    ((l.files c).map (·.1)).Nodup ↔ c.operations = [] ∨ l.schemaFileName ≠ l.operationsFileName := by
  cases h : c.operations with
  | nil => simp [Layout.files, h]
  | cons op ops => simp [Layout.files, h]

theorem nodup_paths_iff (base : String) {names : List String} (h : ∀ n ∈ names, '/' ∉ n.toList) :
    (names.map (PathText.join base)).Nodup ↔ names.Nodup := by
  constructor
  · exact List.Nodup.of_map _
  · intro hnodup
    refine hnodup.map_on ?_
    intro m hm n hn hpath
    have hlast := PathText.getLast?_components_join base (h m hm)
    rw [hpath, PathText.getLast?_components_join base (h n hn)] at hlast
    exact (Option.some.inj hlast).symm

/-- With file names that options may have, the written paths are different and each of them leads to the text
that was rendered for it, if and only if there are no operations or the two names differ. Files at other places
are always left alone. -/
theorem files_stay_apart_iff {given : Options.Settings} {o : Options} (ho : Options.check given = .ok o)
    {directory : String} {header : Option String} {c : Compilation} {t t' : FileTree} {paths : List String}
    (h : ((o.layout directory header).write c).Succeeds t paths t') :
    (paths.Nodup ∧ List.Forall₂ (fun path file => t'.read path = .ok file.2.toUTF8) paths
        ((o.layout directory header).files c) ↔
      c.operations = [] ∨ o.schemaFileName ≠ o.operationsFileName) ∧
    ∀ place, (∀ path ∈ paths, t'.placeOf path ≠ .ok place) → ∀ data,
      t'.at? place = some (.file data) ↔ t.at? place = some (.file data) := by
  obtain ⟨hschema, hoperations⟩ := Options.slash_not_mem_of_check ho
  have hnames : ∀ n ∈ ((o.layout directory header).files c).map (·.1), '/' ∉ n.toList := by
    cases hops : c.operations <;> simp [Layout.files, Options.layout, hops, hschema, hoperations]
  obtain ⟨_, u, hmake, hwrite⟩ := FileAction.succeeds_bind.mp h
  obtain ⟨rfl, places, hfiles, hkeeps⟩ := Layout.exists_places_of_writeFiles
    (fun file hfile => hnames _ (List.mem_map_of_mem hfile)) hwrite
  have hpaths := nodup_paths_iff directory hnames
  rw [List.map_map, nodup_names_files_iff] at hpaths
  constructor
  · constructor
    · rintro ⟨hnodup, -⟩
      exact hpaths.mp hnodup
    · intro hapart
      refine ⟨hpaths.mpr hapart, ?_⟩
      rw [List.forall₂_map_left_iff, List.forall₂_same]
      refine forall_mem_of_forall₂ hfiles.flip ?_
      rintro place file ⟨hplace, -, hfile⟩
      exact FileTree.read_eq_ok hplace (hfile (nodup_names_files_iff.mpr hapart))
  · intro place hplace data
    have hother : ∀ other ∈ places, other ≠ place := by
      refine forall_mem_of_forall₂ ((List.forall₂_and_left _ _).mpr ⟨fun file hfile => hfile, hfiles⟩) ?_
      rintro file other ⟨hfile, hother, -⟩ rfl
      exact hplace _ (List.mem_map_of_mem hfile) hother
    have hall := (FileAction.keeps_of_makeDirectory hmake).trans hkeeps
    exact hall.files place (fun hmem => hother place hmem rfl) data

/-- Nothing keeps both names from being the same. The declarations of the operations then take the place of
those of the schema. -/
theorem same_name_overwrites :
    let given : Options.Settings := [("schema", .list [.text "s"]), ("output_path", .text "/o"),
      ("base_path", .text "/"), ("schema_file_name", .text "x.ts"), ("operations_file_name", .text "x.ts")]
    ∃ o s c t', Options.check given = .ok o ∧ buildSchema "type Query \x7b a: Int \x7d" = .ok s ∧
      compile s o.display "query Q \x7b a \x7d" = .ok c ∧
      ((o.layout o.outputPath none).write c).Succeeds (.directory []) ["/o/x.ts", "/o/x.ts"] t' ∧
      t'.read "/o/x.ts" = .ok ((o.layout o.outputPath none).operationsText c).toUTF8 ∧
      (o.layout o.outputPath none).schemaText c ≠ (o.layout o.outputPath none).operationsText c := by
  intro given
  have hrun : ((Options.check given).toOption.bind fun o =>
      (buildSchema "type Query \x7b a: Int \x7d").toOption.bind fun s =>
      (compile s o.display "query Q \x7b a \x7d").toOption.map fun c =>
        let l := o.layout o.outputPath none
        let after := (l.write c).run.run (.directory [])
        (after.1.toOption, decide ((after.2.read "/o/x.ts").toOption = some (l.operationsText c).toUTF8),
          decide (l.schemaText c = l.operationsText c))) =
      some (some ["/o/x.ts", "/o/x.ts"], true, false) := by
    decide +kernel
  obtain ⟨o, ho, hrun⟩ := Option.bind_eq_some_iff.mp hrun
  obtain ⟨s, hs, hrun⟩ := Option.bind_eq_some_iff.mp hrun
  obtain ⟨c, hc, hrun⟩ := Option.map_eq_some_iff.mp hrun
  simp only [Prod.mk.injEq] at hrun
  obtain ⟨hwrite, hread, htexts⟩ := hrun
  rw [toOption_eq_some_iff] at ho hs hc
  exact ⟨o, s, c, _, ho, hs, hc, FileAction.succeeds_of_toOption hwrite,
    toOption_eq_some_iff.mp (of_decide_eq_true hread), of_decide_eq_false htexts⟩

/-- One file is there already, and another one beside it. -/
theorem files_stay_apart_of_types :
    let given : Options.Settings := [("schema", .list [.text "s"]), ("output_path", .text "/o"),
      ("base_path", .text "/"), ("schema_file_name", .text "types.ts")]
    let t : FileTree := .directory [("o", .directory [("types.ts", .file "old".toUTF8), ("a", .directory [])])]
    ∃ o s c t', Options.check given = .ok o ∧ buildSchema "type Query \x7b a: Int \x7d" = .ok s ∧
      compile s o.display "query Q \x7b a \x7d" = .ok c ∧
      ((o.layout "/o/a/.." none).write c).Succeeds t ["/o/a/../types.ts", "/o/a/../operations.ts"] t' ∧
      t'.read "/o/a/../types.ts" = .ok ((o.layout "/o/a/.." none).schemaText c).toUTF8 ∧
      t'.read "/o/a/../operations.ts" = .ok ((o.layout "/o/a/.." none).operationsText c).toUTF8 ∧
      ∀ place, t'.placeOf "/o/a/../types.ts" ≠ .ok place → t'.placeOf "/o/a/../operations.ts" ≠ .ok place →
        ∀ data, t'.at? place = some (.file data) ↔ t.at? place = some (.file data) := by
  intro given t
  have hrun : ((Options.check given).toOption.bind fun o =>
      (buildSchema "type Query \x7b a: Int \x7d").toOption.bind fun s =>
      (compile s o.display "query Q \x7b a \x7d").toOption.map fun c =>
        ((((o.layout "/o/a/.." none).write c).run.run t).1.toOption, o.schemaFileName, o.operationsFileName,
          c.operations.length)) =
      some (some ["/o/a/../types.ts", "/o/a/../operations.ts"], "types.ts", "operations.ts", 1) := by
    decide +kernel
  obtain ⟨o, ho, hrun⟩ := Option.bind_eq_some_iff.mp hrun
  obtain ⟨s, hs, hrun⟩ := Option.bind_eq_some_iff.mp hrun
  obtain ⟨c, hc, hrun⟩ := Option.map_eq_some_iff.mp hrun
  simp only [Prod.mk.injEq] at hrun
  obtain ⟨hwrite, hschema, hoperations, hlength⟩ := hrun
  rw [toOption_eq_some_iff] at ho hs hc
  obtain ⟨op, hop⟩ := List.length_eq_one_iff.mp hlength
  have hsucceeds := FileAction.succeeds_of_toOption hwrite
  obtain ⟨hiff, hothers⟩ := files_stay_apart_iff ho hsucceeds
  obtain ⟨-, hread⟩ := hiff.mpr (.inr (by rw [hschema, hoperations]; decide))
  rw [Layout.files, hop, List.isEmpty_cons, if_neg Bool.false_ne_true, List.forall₂_cons, List.forall₂_cons] at hread
  refine ⟨o, s, c, _, ho, hs, hc, hsucceeds, hread.1, hread.2.1, ?_⟩
  intro place htypes hops
  exact hothers place (by simp [htypes, hops])

end GraphDecl
