import GraphDecl.Files.Zip.Member
import GraphDecl.Proofs.Files.Unpacking
import GraphDecl.Proofs.Sources.Failures

/-!
The texts of archives. The schema files of an archive are put together in the order of the paths that they are
unpacked to, in whatever order the archive has them. Whatever counts as an archive is one of a known kind.
-/

namespace GraphDecl

open PathText

namespace Archive

/-- The name of a file ends as its path does. -/
theorem endsWith_name {path ending : String} (hslash : '/' ∉ ending.toList) (hlong : 1 < ending.length)
    (h : endsWith path ending = true) : endsWith (name (normal path)) ending = true := by
  obtain ⟨front, last, cs, hpath, hfront, hcomponents⟩ := exists_front_lastComponent path
  rw [endsWith, List.isSuffixOf_iff_suffix, hpath, List.map_append] at h
  have hlower : front.map Char.toLower = [] ∨ (front.map Char.toLower).getLast? = some '/' := by
    refine hfront.imp (by rintro rfl; rfl) fun hslash => ?_
    rw [List.getLast?_map, hslash]
    rfl
  have hlast := (suffix_lastComponent_iff hslash hlower).mp h
  have hidle : isIdle (String.ofList last) = false := by
    have hlength := hlast.length_le
    rw [List.length_map, String.length_toList] at hlength
    rw [isIdle, Bool.or_eq_false_iff]
    constructor
    · rw [String.isEmpty_eq_false_iff, ne_eq, String.ofList_eq_empty_iff]
      rintro rfl
      change ending.length ≤ 0 at hlength
      omega
    · rw [beq_eq_false_iff_ne, ne_eq, ← String.toList_inj, String.toList_ofList]
      rintro rfl
      change ending.length ≤ 1 at hlength
      omega
  rw [name, parts_normal, parts, hcomponents, List.filter_append, List.filter_cons_of_pos (by simpa using hidle),
    List.filter_nil, List.getLast?_concat, Option.getD_some, endsWith, List.isSuffixOf_iff_suffix, String.toList_ofList]
  exact hlast

/-- Every archive is of a kind that is told by its name. -/
theorem isArchive_name {path : String} (h : isArchive path = true) :
    endsWith (name (normal path)) ".zip" = true ∨ tarSuffixes.any (endsWith (name (normal path))) = true := by
  rw [isArchive, Bool.or_eq_true, List.any_eq_true] at h
  refine h.imp (endsWith_name (by decide) (by decide)) ?_
  rintro ⟨ending, hmem, h⟩
  have hplain : ∀ ending ∈ tarSuffixes, '/' ∉ ending.toList ∧ 1 < ending.length := by decide
  exact List.any_eq_true.mpr ⟨ending, hmem, endsWith_name (hplain ending hmem).1 (hplain ending hmem).2 h⟩

/-- Whether a path is that of a schema file shows at its last component. -/
theorem isSchemaFile_iff {p : String} {front last : List Char} (hp : p.toList = front ++ last)
    (hfront : front = [] ∨ front.getLast? = some '/') :
    isSchemaFile p = true ↔ ∃ ending ∈ schemaSuffixes, ending.toList <:+ last := by
  have hplain : ∀ ending ∈ schemaSuffixes, '/' ∉ ending.toList := by decide
  rw [isSchemaFile, List.any_eq_true, hp]
  refine exists_congr fun ending => and_congr_right fun hmem => ?_
  rw [List.isSuffixOf_iff_suffix, suffix_lastComponent_iff (hplain ending hmem) hfront]

/-- A member is a schema file as its name says, unless its name ends in a step to where one is or one back. -/
theorem isSchemaFile_memberPath {item : Zip.Item} (hfile : item.isFolder = false)
    (hdot : (components item.name).getLast? ≠ some ".") (hdown : (components item.name).getLast? ≠ some "..") :
    isSchemaFile (memberPath item.name) = isSchemaFile item.name := by
  obtain ⟨front, last, cs, hname, hfront, hcomponents⟩ := exists_front_lastComponent item.name
  rw [hcomponents, List.getLast?_concat, ne_eq, Option.some.injEq] at hdot hdown
  by_cases hempty : last = []
  · have hnil : item.name = "" := by
      rw [hempty, List.append_nil] at hname
      rcases hfront with hfront | hfront
      · rw [hfront] at hname
        simpa using hname
      · rw [Zip.Item.isFolder, endsInSlash, hname, hfront] at hfile
        cases hfile
    rw [hnil]
    decide
  · have hstep : isIdle (String.ofList last) = false := by
      rw [isIdle, Bool.or_eq_false_iff, String.isEmpty_eq_false_iff, ne_eq, String.ofList_eq_empty_iff,
        beq_eq_false_iff_ne]
      exact ⟨hempty, hdot⟩
    have hplace : ∃ way, item.place = way ++ [String.ofList last] := by
      rw [Zip.Item.place, parts, hcomponents, List.filter_append, List.filter_append,
        List.filter_cons_of_pos (by simpa using hstep), List.filter_nil,
        List.filter_cons_of_pos (by simpa using hdown), List.filter_nil]
      exact ⟨_, rfl⟩
    obtain ⟨way, hplace⟩ := hplace
    obtain ⟨before, hpath, hbefore⟩ := exists_ofPlace_concat way (String.ofList last)
    rw [String.toList_ofList] at hpath
    rw [Bool.eq_iff_iff, Zip.Item.memberPath_eq, hplace, isSchemaFile_iff hpath (.inr hbefore),
      isSchemaFile_iff hname hfront]

/-! ### Texts -/

variable {items others : List Zip.Item}

/-- The files of the members with schemas, in the order of their paths. -/
def schemaMembers (items : List Zip.Item) : List (String × ByteArray) :=
  ((items.filterMap Zip.Item.file?).filter (isSchemaFile ·.1)).mergeSort fun a b => decide (a.1 ≤ b.1)

theorem Apart.perm (h : Apart items) (hperm : others.Perm items) : Apart others :=
  (hperm.pairwise_iff And.symm).mpr h

/-- Members that are apart from each other have files with different paths. -/
theorem Apart.nodup (h : Apart items) : ((items.filterMap Zip.Item.file?).map (·.1)).Nodup := by
  rw [List.Nodup, List.pairwise_map, List.pairwise_filterMap]
  refine h.imp ?_
  rintro item other hroom file hfile file' hfile' hsame
  obtain ⟨hfolder, hpath⟩ := Zip.Item.of_file? hfile
  obtain ⟨-, hpath'⟩ := Zip.Item.of_file? hfile'
  rcases hroom.1 with hyes | hapart
  · rw [hfolder] at hyes
    cases hyes
  · rw [hpath, hpath', ofPlace_inj Zip.Item.isStep_of_mem_place Zip.Item.isStep_of_mem_place] at hsame
    exact hapart (hsame ▸ List.prefix_refl _)

/-- Files with different paths are in one order only. -/
theorem pairwise_mergeSort_paths {files : List (String × ByteArray)} (h : (files.map (·.1)).Nodup) :
    (files.mergeSort fun a b => decide (a.1 ≤ b.1)).Pairwise (·.1 < ·.1) := by
  have hsorted : (files.mergeSort fun a b => decide (a.1 ≤ b.1)).Pairwise fun a b => decide (a.1 ≤ b.1) = true :=
    List.pairwise_mergeSort (by simpa using fun _ _ _ => String.le_trans) (by simpa using String.le_total) files
  have hdistinct : (files.mergeSort fun a b => decide (a.1 ≤ b.1)).Pairwise (·.1 ≠ ·.1) := by
    rw [← List.pairwise_map]
    exact ((List.mergeSort_perm files _).map Prod.fst).nodup_iff.mpr h
  refine hsorted.imp₂ (fun a b hle hne => String.not_le.mp fun hge => hne ?_) hdistinct
  exact String.le_antisymm (by simpa using hle) hge

/-- Files with different paths are sorted in one way only. -/
theorem mergeSort_paths_eq {files files' : List (String × ByteArray)} (h : (files.map (·.1)).Nodup)
    (hperm : files'.Perm files) :
    (files'.mergeSort fun a b => decide (a.1 ≤ b.1)) = files.mergeSort fun a b => decide (a.1 ≤ b.1) := by
  refine List.Perm.eq_of_pairwise (fun a b _ _ hab hba => absurd hba (String.lt_asymm hab))
    (pairwise_mergeSort_paths ((hperm.map (·.1)).nodup_iff.mpr h)) (pairwise_mergeSort_paths h) ?_
  exact (List.mergeSort_perm _ _).trans (hperm.trans (List.mergeSort_perm _ _).symm)

theorem Apart.nodup_schema (h : Apart items) :
    (((items.filterMap Zip.Item.file?).filter (isSchemaFile ·.1)).map (·.1)).Nodup :=
  h.nodup.sublist (List.filter_sublist.map _)

/-- The schema files of an archive do not depend on the order of its members. -/
theorem schemaMembers_perm (h : Apart items) (hperm : others.Perm items) : schemaMembers others = schemaMembers items :=
  mergeSort_paths_eq h.nodup_schema ((hperm.filterMap _).filter _)

/-- The texts of an unpacked archive are those of its schema files, sorted by path. -/
theorem schemaTexts_of_unpacked {t : FileTree} (hapart : Apart items) (h : Unpacked items t) :
    schemaTexts t = (schemaMembers items).mapM fun file => fileText file.2 := by
  have hfiles : (t.files "/").filter (fun file => isSchemaFile file.1) |>.Perm
      ((items.filterMap Zip.Item.file?).filter (isSchemaFile ·.1)) := h.files.filter _
  rw [schemaTexts, schemaMembers, ← mergeSort_paths_eq hapart.nodup_schema hfiles]

/-- The text of an archive is that of its schema files, if all its members can be unpacked. -/
theorem textOf_eq_ok_iff (hapart : Apart items) {text : String} :
    textOf items = .ok text ↔ (∀ item ∈ items, item.Extracts) ∧
      ∃ texts, (schemaMembers items).mapM (fun file => fileText file.2) = .ok texts ∧
        text = Text.joinWith "\n" texts := by
  rw [textOf, bind_eq_ok_iff, ← exists_unpack_iff hapart]
  constructor
  · rintro ⟨t, ht, htext⟩
    obtain ⟨texts, htexts, htext⟩ := bind_eq_ok_iff.mp htext
    rw [schemaTexts_of_unpacked hapart (unpacked_of_unpack hapart ht)] at htexts
    cases htext
    exact ⟨⟨t, ht⟩, texts, htexts, rfl⟩
  · rintro ⟨⟨t, ht⟩, texts, htexts, rfl⟩
    refine ⟨t, ht, bind_eq_ok_iff.mpr ⟨texts, ?_, rfl⟩⟩
    rw [schemaTexts_of_unpacked hapart (unpacked_of_unpack hapart ht), htexts]

end Archive

/-! ### Faults of known kinds -/

/-- Any fault but an archive of an unknown kind. -/
def FileError.IsKnown (e : FileError) : Prop := ∀ suffix, e ≠ .unsupportedArchive suffix

namespace FileTree

variable {t : FileTree} {e : FileError} {path : String}

theorem isKnown_of_follow {here cs : List String} (h : t.follow here cs = .error e) : e.IsKnown := by
  rcases error_of_follow h with rfl | rfl | rfl <;> simp [FileError.IsKnown]

theorem isKnown_of_node (h : t.node path = .error e) : e.IsKnown := by
  rcases error_of_node h with rfl | rfl | rfl | ⟨rfl, -⟩ <;> simp [FileError.IsKnown]

theorem isKnown_of_componentsOf (h : componentsOf path = .error e) : e.IsKnown := by
  rcases error_of_componentsOf h with rfl | ⟨rfl, -⟩ <;> simp [FileError.IsKnown]

theorem isKnown_of_read (h : t.read path = .error e) : e.IsKnown := by
  rcases bind_eq_error_iff.mp h with h | ⟨n, -, h⟩
  · exact isKnown_of_node h
  · cases n with
    | file data => cases h
    | directory entries =>
      cases h
      exact nofun

end FileTree

namespace FileAction

variable {α β : Type}

/-- The step has no faults but known ones. -/
def Known (a : FileAction α) : Prop := ∀ t e t', a.run.run t = (.error e, t') → e.IsKnown

theorem known_throw {e : FileError} (h : e.IsKnown) : (throw e : FileAction α).Known := by
  rintro t _ t' ⟨⟩
  exact h

theorem known_pure (x : α) : (pure x : FileAction α).Known := nofun

theorem known_get : (get : FileAction FileTree).Known := nofun

theorem known_set (t : FileTree) : (set t : FileAction PUnit).Known := nofun

theorem known_lift {x : Except FileError α} (h : ∀ e, x = .error e → e.IsKnown) : (liftM x : FileAction α).Known := by
  cases x with
  | ok a => exact nofun
  | error e => exact known_throw (h e rfl)

/-- Steps one after the other have no faults but those of either. -/
theorem known_bind {a : FileAction α} {f : α → FileAction β} (ha : a.Known) (hf : ∀ x, (f x).Known) :
    (a >>= f).Known := by
  intro t e t' h
  rw [run_bind] at h
  split at h
  · next x u hstep => exact hf x u e t' h
  · next e' u hstep =>
    cases h
    exact ha t _ _ hstep

theorem known_makeDirectories (here cs : List String) : (makeDirectories here cs).Known := by
  induction cs generalizing here with
  | nil => exact known_pure ()
  | cons c cs ih =>
    refine known_bind known_get fun t => ?_
    split
    · split
      · exact ih here
      · split
        · exact ih _
        · split
          · refine known_throw ?_
            split <;> exact nofun
          · exact ih _
          · split
            · exact known_bind (known_throw nofun) fun _ => known_bind (known_set _) fun _ => ih _
            · exact known_bind (known_set _) fun _ => ih _
    · exact known_throw nofun

theorem known_makeDirectory (path : String) : (makeDirectory path).Known :=
  known_bind (known_lift fun _ => FileTree.isKnown_of_componentsOf) fun cs => known_makeDirectories [] cs

theorem known_writeBytes (path : String) (data : ByteArray) : (writeBytes path data).Known := by
  refine known_bind known_get fun t => known_bind (known_lift fun _ => FileTree.isKnown_of_componentsOf) fun cs =>
    known_bind (known_lift fun _ => FileTree.isKnown_of_follow) fun place => ?_
  split
  · split
    · exact known_throw nofun
    · split
      · exact known_throw nofun
      · split
        · exact known_throw nofun
        · exact known_set _
  · exact known_throw nofun

theorem known_liftArchive (x : Except ArchiveFault α) :
    (liftM (x.mapError FileError.archive) : FileAction α).Known := by
  refine known_lift fun e he => ?_
  obtain ⟨fault, -, rfl⟩ := mapError_eq_error_iff.mp he
  exact nofun

end FileAction

namespace Archive

open FileAction

theorem known_checkPath (path : String) : (checkPath path).Known := by
  unfold checkPath
  split
  · exact known_pure ()
  · exact known_throw nofun

theorem known_unpackItem (item : Zip.Item) : (unpackItem item).Known := by
  rw [unpackItem_eq]
  refine known_bind (known_checkPath _) fun _ => known_bind known_get fun t => known_bind ?_ fun _ => ?_
  · split
    · exact known_pure ()
    · exact known_makeDirectory _
  · unfold unpackAtPlace
    split
    · exact known_throw nofun
    · split
      · refine known_bind (known_checkPath _) fun _ => known_bind known_get fun u => ?_
        split
        · exact known_pure ()
        · exact known_makeDirectory _
      · exact known_bind (known_liftArchive _) fun packed => known_bind (known_checkPath _) fun _ =>
          known_bind (known_writeBytes _ _) fun _ => known_bind (known_liftArchive _) fun bytes => known_writeBytes _ _

theorem known_unpackItems (items : List Zip.Item) : (items.forM unpackItem).Known := by
  induction items with
  | nil => exact known_pure ()
  | cons item items ih =>
    rw [List.forM_eq_forM, List.forM_cons]
    exact known_bind (known_unpackItem item) fun _ => ih

theorem isKnown_of_fileText {data : ByteArray} {e : FileError} (h : fileText data = .error e) : e.IsKnown := by
  unfold fileText at h
  split at h
  · cases h
  · cases h
    exact nofun

theorem isKnown_of_treeText {t : FileTree} {e : FileError} (h : treeText t = .error e) : e.IsKnown := by
  rcases bind_eq_error_iff.mp h with h | ⟨texts, -, h⟩
  · obtain ⟨-, file, -, -, -, h⟩ := mapM_eq_error_iff.mp h
    exact isKnown_of_fileText h
  · cases h

theorem isKnown_of_zipText {t : FileTree} {path : String} {e : FileError} (h : zipText t path = .error e) :
    e.IsKnown := by
  rcases bind_eq_error_iff.mp h with h | ⟨data, -, h⟩
  · exact FileTree.isKnown_of_read h
  · rcases bind_eq_error_iff.mp h with h | ⟨items, -, h⟩
    · obtain ⟨fault, -, rfl⟩ := mapError_eq_error_iff.mp h
      exact nofun
    · rcases bind_eq_error_iff.mp h with h | ⟨t, -, h⟩
      · unfold unpack at h
        split at h
        · cases h
        · next e' t hrun =>
          cases h
          exact known_unpackItems items _ _ _ hrun
      · exact isKnown_of_treeText h

theorem isKnown_of_tarText {untar : TarReader} {t : FileTree} {path : String} {e : FileError}
    (h : tarText untar t path = .error (.file e)) : e.IsKnown := by
  rcases bind_eq_error_iff.mp h with h | ⟨data, -, h⟩
  · obtain ⟨fault, hread, hfault⟩ := mapError_eq_error_iff.mp h
    cases hfault
    exact FileTree.isKnown_of_read hread
  · split at h
    · obtain ⟨fault, htext, hfault⟩ := mapError_eq_error_iff.mp h
      cases hfault
      exact isKnown_of_treeText htext
    · cases h
    · cases h
      exact nofun

end Archive

namespace Source

/-- No archive is of an unknown kind. -/
theorem isKnown_of_readPath {w : World} {path : String} {e : FileError} (h : readPath w path = .error (.file e)) :
    e.IsKnown := by
  rcases readPath_cases w path with
    ⟨-, hread⟩ | ⟨hpacked, ⟨-, hread⟩ | ⟨hzip, ⟨-, hread⟩ | ⟨htar, -⟩⟩⟩
  · rw [hread, mapError_eq_error_iff] at h
    obtain ⟨fault, h, hfault⟩ := h
    cases hfault
    rcases bind_eq_error_iff.mp h with h | ⟨data, -, h⟩
    · exact FileTree.isKnown_of_read h
    · exact Archive.isKnown_of_fileText h
  · rw [hread, mapError_eq_error_iff] at h
    obtain ⟨fault, h, hfault⟩ := h
    cases hfault
    exact Archive.isKnown_of_zipText h
  · rw [hread] at h
    exact Archive.isKnown_of_tarText h
  · rcases Archive.isArchive_name hpacked with hkind | hkind
    · exact absurd (hzip.symm.trans hkind) Bool.false_ne_true
    · exact absurd (htar.symm.trans hkind) Bool.false_ne_true

theorem isKnown_of_paths {t : FileTree} {base source : String} {e : FileError}
    (h : Glob.paths t base source = .error e) : e.IsKnown := by
  rw [paths_eq_bind] at h
  rcases bind_eq_error_iff.mp h with h | ⟨_, -, h⟩
  · obtain ⟨-, pattern, -, -, -, h⟩ := mapM_eq_error_iff.mp h
    rw [map_eq_pure_bind] at h
    rcases bind_eq_error_iff.mp h with h | ⟨_, -, h⟩
    · rw [Glob.expand_eq_error h]
      exact nofun
    · cases h
  · cases h

theorem fetch_ne_file {web : String → Reply} {url : String} {e : FileError} : fetch web url ≠ .error (.file e) := by
  cases hparse : Url.parse url with
  | error fault =>
    rw [fetch_of_malformed hparse]
    exact nofun
  | ok u =>
    rw [fetch_of_address hparse]
    split
    · split
      · exact nofun
      · split <;> exact nofun
    · exact nofun

/-- Loading sources has no faults but known ones. -/
theorem isKnown_of_load {w : World} {base : String} {sources : List String} {e : FileError}
    (h : load w base sources = .error (.file e)) : e.IsKnown := by
  obtain ⟨front, source, back, -, -, h⟩ := load_eq_error_iff.mp h
  cases hurl : isUrl source with
  | true =>
    rw [textsOf_of_isUrl hurl, map_eq_pure_bind] at h
    rcases bind_eq_error_iff.mp h with h | ⟨_, -, h⟩
    · exact absurd h fetch_ne_file
    · cases h
  | false =>
    rw [textsOf_of_patterns hurl] at h
    split at h
    · next e' hpaths =>
      cases h
      exact isKnown_of_paths hpaths
    · cases h
    · obtain ⟨-, path, -, -, -, h⟩ := mapM_eq_error_iff.mp h
      exact isKnown_of_readPath h

end Source

namespace Archive

/-- A zip archive with these items is at the path. -/
structure Holds (t : FileTree) (path : String) (items : List Zip.Item) : Prop where
  zip : endsWith (name (normal path)) ".zip" = true
  listed : ∃ data, t.node (normal path) = .ok (.file data) ∧ Zip.items data = .ok items

variable {untar : TarReader} {t : FileTree} {path text : String} {items : List Zip.Item}

theorem Holds.read_eq_ok_iff (h : Holds t path items) : read untar t path = .ok text ↔ textOf items = .ok text := by
  obtain ⟨data, hnode, hitems⟩ := h.listed
  rw [read_of_isZip h.zip, mapError_eq_ok_iff, zipText_eq_ok_iff]
  constructor
  · rintro ⟨data', items', hnode', hitems', htext⟩
    rw [hnode] at hnode'
    cases hnode'
    rw [hitems] at hitems'
    cases hitems'
    exact htext
  · exact fun htext => ⟨data, items, hnode, hitems, htext⟩

/-- The text of a zip archive with members apart from each other. It is there if they can all be unpacked and the schema
files among them have text, and joins what these have in the order of their paths, so the order of the members does
not matter. A file is a schema file by the path that it is unpacked to, which its name says unless that ends in a dot
or two behind a slash. Whatever counts as an archive is told to be a zip or tar archive by its name. -/
theorem text_of_apart_members :
    (∀ (untar : TarReader) (t : FileTree) (path : String) (items : List Zip.Item), Holds t path items → Apart items →
      (schemaMembers items).Perm ((items.filterMap Zip.Item.file?).filter (isSchemaFile ·.1)) ∧
      (schemaMembers items).Pairwise (·.1 < ·.1) ∧
      (∀ item ∈ items, item.isFolder = false → (components item.name).getLast? ≠ some "." →
        (components item.name).getLast? ≠ some ".." →
        isSchemaFile (memberPath item.name) = isSchemaFile item.name) ∧
      (∀ text, read untar t path = .ok text ↔ (∀ item ∈ items, item.Extracts) ∧
        ∃ texts, (schemaMembers items).mapM (fun file => fileText file.2) = .ok texts ∧
          text = Text.joinWith "\n" texts) ∧
      ∀ (t' : FileTree) (path' : String) (others : List Zip.Item), Holds t' path' others → others.Perm items →
        (read untar t' path').toOption = (read untar t path).toOption) ∧
    (∀ path, isArchive path = true →
      endsWith (name (normal path)) ".zip" = true ∨ tarSuffixes.any (endsWith (name (normal path))) = true) ∧
    ∀ (w : World) (base : String) (sources : List String) (suffix : String),
      Source.load w base sources ≠ .error (.file (.unsupportedArchive suffix)) := by
  refine ⟨fun untar t path items hholds hapart => ⟨List.mergeSort_perm _ _, pairwise_mergeSort_paths hapart.nodup_schema,
    fun item _ => isSchemaFile_memberPath, fun text => hholds.read_eq_ok_iff.trans (textOf_eq_ok_iff hapart),
    fun t' path' others hothers hperm => ?_⟩, fun path => isArchive_name,
    fun w base sources suffix hload => Source.isKnown_of_load hload suffix rfl⟩
  have htext (text : String) : read untar t' path' = .ok text ↔ read untar t path = .ok text := by
    rw [hothers.read_eq_ok_iff, hholds.read_eq_ok_iff, textOf_eq_ok_iff (hapart.perm hperm), textOf_eq_ok_iff hapart,
      schemaMembers_perm hapart hperm]
    simp only [hperm.mem_iff]
  refine Option.ext fun text => ?_
  rw [toOption_eq_some_iff, toOption_eq_some_iff, htext]

/-- A member is unpacked to a schema file that its name does not end as. -/
theorem text_of_member_with_dots :
    let data := Zip.ofMembers [⟨"x.graphql/..", "scalar A".toUTF8⟩]
    let t : FileTree := .directory [("a.zip", .file data)]
    (∃ items, Holds t "/a.zip" items ∧ Apart items ∧ items.map (·.name) = ["x.graphql/.."]) ∧
    isSchemaFile "x.graphql/.." = false ∧ ∀ untar, read untar t "/a.zip" = .ok "scalar A" := by
  intro data t
  have hnames : (Zip.items data).toOption.map (List.map (·.name)) = some ["x.graphql/.."] := by decide +kernel
  have hzip : isZip (normal "/a.zip") = true := by decide +kernel
  have htext : (zipText t (normal "/a.zip")).toOption = some "scalar A" := by decide +kernel
  obtain ⟨items, hitems, hnames⟩ := Option.map_eq_some_iff.mp hnames
  have hapart : Apart items := by
    obtain ⟨item, rfl, -⟩ := List.map_eq_singleton_iff.mp hnames
    exact List.pairwise_singleton _ item
  refine ⟨⟨items, ⟨hzip, data, rfl, toOption_eq_some_iff.mp hitems⟩, hapart, hnames⟩, by decide, fun untar => ?_⟩
  rw [read_of_isZip hzip, toOption_eq_some_iff.mp htext]
  rfl

/-- An archive of which one member is a schema file, in a directory. -/
theorem text_of_member_beside_note :
    let data := Zip.ofMembers [⟨"d/s.gql", "scalar A".toUTF8⟩, ⟨"n.txt", "note".toUTF8⟩]
    let t : FileTree := .directory [("a.zip", .file data)]
    ∃ items, Holds t "/a.zip" items ∧ Apart items ∧ items.map (·.name) = ["d/s.gql", "n.txt"] ∧
      (∀ item ∈ items, item.Extracts) ∧
      ∃ texts, (schemaMembers items).mapM (fun file => fileText file.2) = .ok texts ∧
        Text.joinWith "\n" texts = "scalar A" := by
  intro data t
  have hnames : (Zip.items data).toOption.map (List.map (·.name)) = some ["d/s.gql", "n.txt"] := by decide +kernel
  have htext : (read (fun _ => .broken "") t "/a.zip").toOption = some "scalar A" := by decide +kernel
  obtain ⟨items, hitems, hnames⟩ := Option.map_eq_some_iff.mp hnames
  have hholds : Holds t "/a.zip" items := ⟨by decide +kernel, data, rfl, toOption_eq_some_iff.mp hitems⟩
  have hapart : Apart items := by
    obtain ⟨item, rest, rfl, hitem, hrest⟩ := List.map_eq_cons_iff.mp hnames
    obtain ⟨note, rfl, hnote⟩ := List.map_eq_singleton_iff.mp hrest
    refine List.pairwise_pair.mpr ⟨.inr ?_, .inr ?_⟩
    · rw [Zip.Item.place, Zip.Item.place, hitem, hnote]
      decide
    · rw [Zip.Item.place, Zip.Item.place, hitem, hnote]
      decide
  obtain ⟨-, -, -, hread, -⟩ := text_of_apart_members.1 _ t "/a.zip" items hholds hapart
  obtain ⟨hextracts, texts, htexts, hjoined⟩ := (hread "scalar A").mp (toOption_eq_some_iff.mp htext)
  exact ⟨items, hholds, hapart, hnames, hextracts, texts, htexts, hjoined.symm⟩

end Archive

end GraphDecl
