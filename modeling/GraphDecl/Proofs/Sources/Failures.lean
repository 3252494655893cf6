import GraphDecl.CommandLine.Run
import GraphDecl.Proofs.Files.Changes
import GraphDecl.Proofs.Sources.Loading

/-!
How the loading of sources fails. What cannot be found or fetched is reported, and ends a run with a message. What
is there but cannot be read is not, and neither is a URL that cannot be asked for: there the run breaks off.
-/

namespace GraphDecl

/-! ### What can be read -/

theorem exists_fileText_iff {data : ByteArray} : (∃ text, fileText data = .ok text) ↔ data.IsValidUTF8 := by
  unfold fileText String.fromUTF8?
  by_cases h : data.IsValidUTF8
  · simp [h]
  · simp [h]

theorem exists_readText_iff {t : FileTree} {path : String} :
    (∃ text, t.readText path = .ok text) ↔ ∃ data, t.node path = .ok (.file data) ∧ data.IsValidUTF8 := by
  simp only [FileTree.readText, bind_eq_ok_iff, FileTree.read_eq_ok_iff, ← exists_fileText_iff]
  constructor
  · rintro ⟨text, data, hdata, htext⟩
    exact ⟨data, hdata, text, htext⟩
  · rintro ⟨data, hdata, text, htext⟩
    exact ⟨text, data, hdata, htext⟩

namespace Archive

/-- The schema files of a tree have text. -/
def HasText (t : FileTree) : Prop :=
  ∀ path data, (path, data) ∈ t.files "/" → isSchemaFile path = true → data.IsValidUTF8

theorem exists_schemaTexts_iff {t : FileTree} : (∃ texts, schemaTexts t = .ok texts) ↔ HasText t := by
  simp only [schemaTexts, HasText, exists_mapM_eq_ok_iff, exists_fileText_iff, List.mem_mergeSort, List.mem_filter,
    and_imp, Prod.forall]

/-- An unpacked archive has a text if its schema files are in UTF-8. -/
theorem exists_treeText_iff {t : FileTree} : (∃ text, treeText t = .ok text) ↔ HasText t := by
  rw [← exists_schemaTexts_iff]
  simp only [treeText, bind_eq_ok_iff]
  constructor
  · rintro ⟨-, texts, htexts, -⟩
    exact ⟨texts, htexts⟩
  · rintro ⟨texts, htexts⟩
    exact ⟨_, texts, htexts, rfl⟩

theorem zipText_eq_ok_iff {t : FileTree} {path text : String} :
    zipText t path = .ok text ↔
      ∃ data items, t.node path = .ok (.file data) ∧ Zip.items data = .ok items ∧ textOf items = .ok text := by
  rw [zipText]
  constructor
  · intro h
    obtain ⟨data, hdata, h⟩ := bind_eq_ok_iff.mp h
    obtain ⟨items, hitems, htext⟩ := bind_eq_ok_iff.mp h
    exact ⟨data, items, FileTree.read_eq_ok_iff.mp hdata, mapError_eq_ok_iff.mp hitems, htext⟩
  · rintro ⟨data, items, hnode, hitems, htext⟩
    refine bind_eq_ok_iff.mpr ⟨data, FileTree.read_eq_ok_iff.mpr hnode, ?_⟩
    exact bind_eq_ok_iff.mpr ⟨items, mapError_eq_ok_iff.mpr hitems, htext⟩

section

variable {untar : TarReader} {t : FileTree} {path : String}

theorem read_of_isZip (h : isZip (PathText.normal path) = true) :
    read untar t path = (zipText t (PathText.normal path)).mapError .file := by
  simp [read, h]

theorem tarText_of_node {data : ByteArray} (h : t.node path = .ok (.file data)) :
    tarText untar t path = match untar data with
      | .tree unpacked => (treeText unpacked).mapError .file
      | .refused reason => .error (.source (.refusedMember path reason))
      | .broken reason => .error (.file (.tar reason)) := by
  rw [tarText, FileTree.read_eq_ok_iff.mpr h]
  rfl

theorem exists_data_of_tarText {e : LoadError} (h : tarText untar t path = .error e) :
    (∃ data, t.node path = .ok (.file data)) ∨ ∃ fault, e = .file fault := by
  rcases bind_eq_error_iff.mp h with h | ⟨data, hdata, -⟩
  · obtain ⟨fault, -, rfl⟩ := mapError_eq_error_iff.mp h
    exact .inr ⟨fault, rfl⟩
  · exact .inl ⟨data, FileTree.read_eq_ok_iff.mp (mapError_eq_ok_iff.mp hdata)⟩

theorem exists_tarText_iff :
    (∃ text, tarText untar t path = .ok text) ↔
      ∃ data unpacked, t.node path = .ok (.file data) ∧ untar data = .tree unpacked ∧ HasText unpacked := by
  constructor
  · rintro ⟨text, htext⟩
    obtain ⟨data, hdata, -⟩ := bind_eq_ok_iff.mp htext
    have hnode := FileTree.read_eq_ok_iff.mp (mapError_eq_ok_iff.mp hdata)
    rw [tarText_of_node hnode] at htext
    split at htext
    · next unpacked hunpacked =>
      exact ⟨data, unpacked, hnode, hunpacked, exists_treeText_iff.mp ⟨text, mapError_eq_ok_iff.mp htext⟩⟩
    · cases htext
    · cases htext
  · rintro ⟨data, unpacked, hnode, hunpacked, htext⟩
    obtain ⟨text, htext⟩ := exists_treeText_iff.mpr htext
    refine ⟨text, ?_⟩
    rw [tarText_of_node hnode, hunpacked]
    exact mapError_eq_ok_iff.mpr htext

/-- A tar archive is reported for a member that is refused, and for nothing else. -/
theorem tarText_eq_source_iff {fault : SourceError} :
    tarText untar t path = .error (.source fault) ↔
      ∃ data reason, t.node path = .ok (.file data) ∧ untar data = .refused reason ∧
        fault = .refusedMember path reason := by
  constructor
  · intro h
    rcases exists_data_of_tarText h with ⟨data, hnode⟩ | ⟨_, hfile⟩
    · rw [tarText_of_node hnode] at h
      split at h
      · obtain ⟨_, -, hfile⟩ := mapError_eq_error_iff.mp h
        cases hfile
      · next reason hreason =>
        cases h
        exact ⟨data, reason, hnode, hreason, rfl⟩
      · cases h
    · cases hfile
  · rintro ⟨data, reason, hnode, hreason, rfl⟩
    rw [tarText_of_node hnode, hreason]

end

end Archive

/-! ### Searches -/

namespace Glob

variable {t : FileTree} {directoriesOnly : Bool} {e : FileError}

theorem entries_eq_error {dir : String} (h : t.entries dir = .error e) : e = .nullInPath := by
  unfold FileTree.entries at h
  split at h
  · cases h
  · cases h
    rfl
  · cases h

theorem candidates_eq_error {dir component : String} (h : candidates t directoriesOnly dir component = .error e) :
    e = .nullInPath := by
  unfold candidates at h
  split at h
  · cases h
  · split at h
    · rcases bind_eq_error_iff.mp h with h | ⟨_, -, h⟩
      · exact entries_eq_error h
      · cases h
    · rcases bind_eq_error_iff.mp h with h | ⟨_, -, h⟩
      · exact entries_eq_error h
      · cases h

theorem mapM_candidates_eq_error {dirs : List String} {component : String} (h : (dirs.mapM fun dir => do
    return (← candidates t directoriesOnly dir component).map (PathText.join dir)) = .error e) :
    e = .nullInPath := by
  obtain ⟨-, dir, -, -, -, h⟩ := mapM_eq_error_iff.mp h
  rcases bind_eq_error_iff.mp h with h | ⟨_, -, h⟩
  · exact candidates_eq_error h
  · cases h

/-- The only fault of a search is a directory whose name cannot be passed on. -/
theorem expand_eq_error {pattern : List Char} (h : expand t directoriesOnly pattern = .error e) :
    e = .nullInPath := by
  fun_induction expand t directoriesOnly pattern with
  | case1 => cases h
  | case2 _ _ _ _ _ _ step _ ih =>
    rcases bind_eq_error_iff.mp h with h | ⟨dirs, -, h⟩
    · exact ih h
    · rcases bind_eq_error_iff.mp h with h | ⟨_, -, h⟩
      · exact mapM_candidates_eq_error h
      · cases h
  | case3 =>
    rcases bind_eq_error_iff.mp h with h | ⟨dirs, -, h⟩
    · cases h
    · rcases bind_eq_error_iff.mp h with h | ⟨_, -, h⟩
      · exact mapM_candidates_eq_error h
      · cases h

end Glob

namespace Source

/-- The path leads to a file that can be read: one with text, or an archive that unpacks and whose schema files have
text. -/
inductive Readable (w : World) (path : String) : Prop
  | text {data : ByteArray} (plain : Archive.isArchive path = false) (there : w.tree.node path = .ok (.file data))
      (valid : data.IsValidUTF8)
  | zip {data : ByteArray} {items : List Zip.Item} {unpacked : FileTree} (packed : Archive.isArchive path = true)
      (zip : Archive.isZip (PathText.normal path) = true)
      (there : w.tree.node (PathText.normal path) = .ok (.file data)) (listed : Zip.items data = .ok items)
      (unpacks : Archive.unpack items = .ok unpacked) (valid : Archive.HasText unpacked)
  | tar {data : ByteArray} {unpacked : FileTree} (packed : Archive.isArchive path = true)
      (zip : Archive.isZip (PathText.normal path) = false) (tar : Archive.isTar (PathText.normal path) = true)
      (there : w.tree.node (PathText.normal path) = .ok (.file data)) (unpacks : w.untar data = .tree unpacked)
      (valid : Archive.HasText unpacked)

/-- The path leads to a tar archive with a member that is not unpacked. -/
structure Refused (w : World) (path reason : String) : Prop where
  packed : Archive.isArchive path = true
  zip : Archive.isZip (PathText.normal path) = false
  tar : Archive.isTar (PathText.normal path) = true
  refuses : ∃ data, w.tree.node (PathText.normal path) = .ok (.file data) ∧ w.untar data = .refused reason

section

variable {w : World} {path : String}

theorem readPath_of_plain (h : Archive.isArchive path = false) :
    readPath w path = (w.tree.readText path).mapError .file := by
  rw [readPath, if_neg (by simp [h])]

theorem readPath_of_zip (h : Archive.isArchive path = true) (hzip : Archive.isZip (PathText.normal path) = true) :
    readPath w path = (Archive.zipText w.tree (PathText.normal path)).mapError .file := by
  rw [readPath, if_pos h, Archive.read_of_isZip hzip]

theorem readPath_of_tar (h : Archive.isArchive path = true) (hzip : Archive.isZip (PathText.normal path) = false)
    (htar : Archive.isTar (PathText.normal path) = true) :
    readPath w path = Archive.tarText w.untar w.tree (PathText.normal path) := by
  simp [readPath, Archive.read, h, hzip, htar]

/-- How a path is read: as text, or as an archive of the kind that its name says. -/
theorem readPath_cases (w : World) (path : String) :
    Archive.isArchive path = false ∧ readPath w path = (w.tree.readText path).mapError .file ∨
    Archive.isArchive path = true ∧
      (Archive.isZip (PathText.normal path) = true ∧
          readPath w path = (Archive.zipText w.tree (PathText.normal path)).mapError .file ∨
        Archive.isZip (PathText.normal path) = false ∧
          (Archive.isTar (PathText.normal path) = true ∧
              readPath w path = Archive.tarText w.untar w.tree (PathText.normal path) ∨
            Archive.isTar (PathText.normal path) = false ∧
              readPath w path = .error (.file (.unsupportedArchive (PathText.suffix (PathText.normal path)))))) := by
  cases hpacked : Archive.isArchive path with
  | false => exact .inl ⟨rfl, readPath_of_plain hpacked⟩
  | true =>
    refine .inr ⟨rfl, ?_⟩
    cases hzip : Archive.isZip (PathText.normal path) with
    | true => exact .inl ⟨rfl, readPath_of_zip hpacked hzip⟩
    | false =>
      refine .inr ⟨rfl, ?_⟩
      cases htar : Archive.isTar (PathText.normal path) with
      | true => exact .inl ⟨rfl, readPath_of_tar hpacked hzip htar⟩
      | false => exact .inr ⟨rfl, by simp [readPath, Archive.read, hpacked, hzip, htar]⟩

/-- A path has a text if it is readable. -/
theorem exists_readPath_iff : (∃ text, readPath w path = .ok text) ↔ Readable w path := by
  constructor
  · rintro ⟨text, htext⟩
    rcases readPath_cases w path with
      ⟨hpacked, hread⟩ | ⟨hpacked, ⟨hzip, hread⟩ | ⟨hzip, ⟨htar, hread⟩ | ⟨-, hread⟩⟩⟩
    · rw [hread, mapError_eq_ok_iff] at htext
      obtain ⟨data, hnode, hvalid⟩ := exists_readText_iff.mp ⟨text, htext⟩
      exact .text hpacked hnode hvalid
    · rw [hread, mapError_eq_ok_iff, Archive.zipText_eq_ok_iff] at htext
      obtain ⟨data, items, hnode, hitems, htext⟩ := htext
      obtain ⟨unpacked, hunpacked, htext⟩ := bind_eq_ok_iff.mp htext
      exact .zip hpacked hzip hnode hitems hunpacked (Archive.exists_treeText_iff.mp ⟨text, htext⟩)
    · rw [hread] at htext
      obtain ⟨data, unpacked, hnode, hunpacked, hvalid⟩ := Archive.exists_tarText_iff.mp ⟨text, htext⟩
      exact .tar hpacked hzip htar hnode hunpacked hvalid
    · rw [hread] at htext
      cases htext
  · intro h
    cases h with
    | text plain there valid =>
      obtain ⟨text, htext⟩ := exists_readText_iff.mpr ⟨_, there, valid⟩
      exact ⟨text, by rw [readPath_of_plain plain, htext]; rfl⟩
    | zip packed zip there listed unpacks valid =>
      obtain ⟨text, htext⟩ := Archive.exists_treeText_iff.mpr valid
      refine ⟨text, ?_⟩
      rw [readPath_of_zip packed zip, mapError_eq_ok_iff, Archive.zipText_eq_ok_iff]
      exact ⟨_, _, there, listed, bind_eq_ok_iff.mpr ⟨_, unpacks, htext⟩⟩
    | tar packed zip tar there unpacks valid =>
      rw [readPath_of_tar packed zip tar]
      exact Archive.exists_tarText_iff.mpr ⟨_, _, there, unpacks, valid⟩

/-- The only thing about a path that is reported is a member of an archive that is not unpacked. -/
theorem readPath_eq_source_iff {fault : SourceError} :
    readPath w path = .error (.source fault) ↔
      ∃ reason, Refused w path reason ∧ fault = .refusedMember (PathText.normal path) reason := by
  constructor
  · intro h
    rcases readPath_cases w path with
      ⟨-, hread⟩ | ⟨hpacked, ⟨-, hread⟩ | ⟨hzip, ⟨htar, hread⟩ | ⟨-, hread⟩⟩⟩
    · rw [hread, mapError_eq_error_iff] at h
      obtain ⟨_, -, hfile⟩ := h
      cases hfile
    · rw [hread, mapError_eq_error_iff] at h
      obtain ⟨_, -, hfile⟩ := h
      cases hfile
    · rw [hread, Archive.tarText_eq_source_iff] at h
      obtain ⟨data, reason, hnode, hreason, hfault⟩ := h
      exact ⟨reason, ⟨hpacked, hzip, htar, data, hnode, hreason⟩, hfault⟩
    · rw [hread] at h
      cases h
  · rintro ⟨reason, ⟨hpacked, hzip, htar, data, hnode, hreason⟩, hfault⟩
    rw [readPath_of_tar hpacked hzip htar, Archive.tarText_eq_source_iff]
    exact ⟨data, reason, hnode, hreason, hfault⟩

end

/-! ### Sources that load, and sources that break off -/

variable {w : World} {base source : String} {sources : List String}

/-- The source loads: a page answers, or the patterns find something and all that they find can be read. -/
inductive Loads (w : World) (base source : String) : Prop
  | page {u : Url} {code : Nat} {text : String} (url : isUrl source = true) (address : Url.parse source = .ok u)
      (scheme : u.requested.scheme.isEmpty = false) (answer : w.web u.requested.text = .page code text)
      (success : 200 ≤ code ∧ code < 300)
  | files {p path : String} (url : isUrl source = false)
      (listed : ∀ p ∈ patterns source, ∃ found, matched w.tree base p = .ok found)
      (mem : p ∈ patterns source) (finds : Finds w.tree base p path)
      (readable : ∀ p ∈ patterns source, ∀ path, Finds w.tree base p path → Readable w path)

/-- Loading breaks off at the source: its URL is malformed, or answers without a scheme, one of its patterns cannot be
searched for, or the first of the paths found that cannot be read is not one that is reported. -/
inductive Breaks (w : World) (base source : String) : Prop
  | address {fault : UrlFault} (url : isUrl source = true) (malformed : Url.parse source = .error fault)
  | scheme {u : Url} {code : Nat} {text : String} (url : isUrl source = true) (address : Url.parse source = .ok u)
      (missing : u.requested.scheme.isEmpty = true) (answer : w.web u.requested.text = .page code text)
  | listing {p : String} (url : isUrl source = false) (mem : p ∈ patterns source)
      (unlisted : matched w.tree base p = .error .nullInPath)
  | reading {front back : List String} {path : String} (url : isUrl source = false)
      (found : Glob.paths w.tree base source = .ok (front ++ path :: back)) (readable : ∀ p ∈ front, Readable w p)
      (unreadable : ¬ Readable w path) (unreported : ∀ reason, ¬ Refused w path reason)

/-- Loading comes to a source at which it breaks off. -/
def Stuck (w : World) (base : String) (sources : List String) : Prop :=
  ∃ front source back, sources = front ++ source :: back ∧ (∀ s ∈ front, Loads w base s) ∧ Breaks w base source

/-- All that the patterns find can be read. -/
theorem exists_readPaths_iff {paths : List String} (h : Glob.paths w.tree base source = .ok paths) :
    (∃ texts, paths.mapM (readPath w) = .ok texts) ↔
      ∀ p ∈ patterns source, ∀ path, Finds w.tree base p path → Readable w path := by
  simp only [exists_mapM_eq_ok_iff, exists_readPath_iff, mem_iff_of_paths h]
  constructor
  · exact fun hread p hp path hfinds => hread path ⟨p, hp, hfinds⟩
  · rintro hread path ⟨p, hp, hfinds⟩
    exact hread p hp path hfinds

theorem fetch_of_address {web : String → Reply} {url : String} {u : Url} (h : Url.parse url = .ok u) :
    fetch web url = match web u.requested.text with
      | .page code text =>
        if u.requested.scheme.isEmpty then .error (.url (.noScheme u.requested.text))
        else if 200 ≤ code ∧ code < 300 then .ok text
        else .error (.source (.status code url))
      | .failure reason => .error (.source (.request url reason)) := by
  rw [fetch, h]
  rfl

theorem fetch_of_malformed {web : String → Reply} {url : String} {fault : UrlFault} (h : Url.parse url = .error fault) :
    fetch web url = .error (.url fault) := by
  rw [fetch, h]
  rfl

theorem Loads.exists_texts (h : Loads w base source) : ∃ texts, textsOf w base source = .ok texts := by
  cases h with
  | @page u code text url address scheme answer success =>
    refine ⟨[text], ?_⟩
    rw [textsOf_of_isUrl url, fetch_of_address address, answer]
    simp [scheme, success]
  | @files p path url listed mem finds readable =>
    obtain ⟨paths, hpaths⟩ := exists_paths_iff.mpr listed
    have hpath : path ∈ paths := (mem_iff_of_paths hpaths).mpr ⟨p, mem, finds⟩
    rw [textsOf_of_patterns url, hpaths]
    cases paths with
    | nil => cases hpath
    | cons path paths => exact (exists_readPaths_iff hpaths).mpr readable

theorem Breaks.exists_error (h : Breaks w base source) :
    ∃ e, textsOf w base source = .error e ∧ ∀ fault, e ≠ .source fault := by
  cases h with
  | @address fault url malformed =>
    refine ⟨.url fault, ?_, fun _ => nofun⟩
    rw [textsOf_of_isUrl url, fetch_of_malformed malformed]
    rfl
  | @scheme u code text url address missing answer =>
    refine ⟨.url (.noScheme u.requested.text), ?_, fun _ => nofun⟩
    rw [textsOf_of_isUrl url, fetch_of_address address, answer]
    simp only [missing, if_true]
    rfl
  | @listing p url mem unlisted =>
    rw [textsOf_of_patterns url]
    cases hpaths : Glob.paths w.tree base source with
    | error e => exact ⟨.file e, rfl, fun _ => nofun⟩
    | ok paths =>
      obtain ⟨found, hfound⟩ := exists_paths_iff.mp ⟨paths, hpaths⟩ p mem
      rw [unlisted] at hfound
      cases hfound
  | @reading front back path url found readable unreadable unreported =>
    cases hread : readPath w path with
    | ok text => exact absurd (exists_readPath_iff.mp ⟨text, hread⟩) unreadable
    | error e =>
      refine ⟨e, ?_, ?_⟩
      · have hfront : ∃ texts, front.mapM (readPath w) = .ok texts :=
          exists_mapM_eq_ok_iff.mpr fun p hp => exists_readPath_iff.mpr (readable p hp)
        have herror : (front ++ path :: back).mapM (readPath w) = .error e :=
          mapM_eq_error_iff.mpr ⟨front, path, back, rfl, hfront, hread⟩
        rw [textsOf_of_patterns url, found]
        cases front <;> exact herror
      · rintro fault rfl
        obtain ⟨reason, hrefused, -⟩ := readPath_eq_source_iff.mp hread
        exact unreported reason hrefused

/-- A source that neither loads nor makes the loading break off is reported. -/
theorem loads_or_breaks (w : World) (base source : String) :
    Loads w base source ∨ (∃ fault, textsOf w base source = .error (.source fault)) ∨ Breaks w base source := by
  cases hurl : isUrl source with
  | true =>
    cases hparse : Url.parse source with
    | error fault => exact .inr (.inr (.address hurl hparse))
    | ok u =>
      rw [textsOf_of_isUrl hurl, fetch_of_address hparse]
      cases hanswer : w.web u.requested.text with
      | failure reason => exact .inr (.inl ⟨.request source reason, rfl⟩)
      | page code text =>
        cases hscheme : u.requested.scheme.isEmpty with
        | true => exact .inr (.inr (.scheme hurl hparse hscheme hanswer))
        | false =>
          by_cases hcode : 200 ≤ code ∧ code < 300
          · exact .inl (.page hurl hparse hscheme hanswer hcode)
          · refine .inr (.inl ⟨.status code source, ?_⟩)
            simp [hcode]
  | false =>
    by_cases hlisted : ∀ p ∈ patterns source, ∃ found, matched w.tree base p = .ok found
    · obtain ⟨paths, hpaths⟩ := exists_paths_iff.mpr hlisted
      rw [textsOf_of_patterns hurl, hpaths]
      cases paths with
      | nil => exact .inr (.inl ⟨.noMatch source base, rfl⟩)
      | cons path paths =>
        cases htexts : (path :: paths).mapM (readPath w) with
        | ok texts =>
          obtain ⟨p, hp, hfinds⟩ := (mem_iff_of_paths hpaths).mp List.mem_cons_self
          exact .inl (.files hurl hlisted hp hfinds ((exists_readPaths_iff hpaths).mp ⟨texts, htexts⟩))
        | error e =>
          obtain ⟨front, p, back, hsplit, hfront, hread⟩ := mapM_eq_error_iff.mp htexts
          by_cases hreported : ∃ fault, e = .source fault
          · obtain ⟨fault, rfl⟩ := hreported
            exact .inr (.inl ⟨fault, htexts⟩)
          · refine .inr (.inr (.reading hurl (hsplit ▸ hpaths) (fun q hq => ?_) (fun hreadable => ?_) fun reason h => ?_))
            · exact exists_readPath_iff.mp (exists_mapM_eq_ok_iff.mp hfront q hq)
            · obtain ⟨text, htext⟩ := exists_readPath_iff.mpr hreadable
              rw [hread] at htext
              cases htext
            · rw [readPath_eq_source_iff.mpr ⟨reason, h, rfl⟩] at hread
              cases hread
              exact hreported ⟨_, rfl⟩
    · push Not at hlisted
      obtain ⟨p, hp, hunlisted⟩ := hlisted
      cases hmatched : matched w.tree base p with
      | ok found => exact absurd hmatched (hunlisted found)
      | error e =>
        have he : e = .nullInPath := Glob.expand_eq_error hmatched
        exact .inr (.inr (.listing hurl hp (he ▸ hmatched)))

/-- A source loads if and only if it has texts. -/
theorem loads_iff : Loads w base source ↔ ∃ texts, textsOf w base source = .ok texts := by
  refine ⟨Loads.exists_texts, ?_⟩
  rintro ⟨texts, htexts⟩
  rcases loads_or_breaks w base source with h | ⟨fault, hfault⟩ | h
  · exact h
  · rw [htexts] at hfault
    cases hfault
  · obtain ⟨e, he, -⟩ := h.exists_error
    rw [htexts] at he
    cases he

theorem breaks_iff :
    Breaks w base source ↔ ∃ e, textsOf w base source = .error e ∧ ∀ fault, e ≠ .source fault := by
  refine ⟨Breaks.exists_error, ?_⟩
  rintro ⟨e, he, hunreported⟩
  rcases loads_or_breaks w base source with h | ⟨fault, hfault⟩ | h
  · obtain ⟨texts, htexts⟩ := h.exists_texts
    rw [he] at htexts
    cases htexts
  · rw [he] at hfault
    cases hfault
    exact absurd rfl (hunreported fault)
  · exact h

/-- Sources are stuck if loading them ends in a fault that is not reported. -/
theorem stuck_iff : Stuck w base sources ↔ ∃ e, load w base sources = .error e ∧ ∀ fault, e ≠ .source fault := by
  simp only [Stuck, load_eq_error_iff, exists_load_eq_ok_iff, loads_iff, breaks_iff]
  constructor
  · rintro ⟨front, source, back, hsources, hfront, e, he, hfault⟩
    exact ⟨e, ⟨front, source, back, hsources, hfront, he⟩, hfault⟩
  · rintro ⟨e, ⟨front, source, back, hsources, hfront, he⟩, hfault⟩
    exact ⟨front, source, back, hsources, hfront, e, he, hfault⟩

end Source

namespace CommandLine

/-! ### In a run -/

/-- How a run ends that cannot load its sources. -/
def stopFor : LoadError → Stop
  | .source fault => .exit ("Error: " ++ fault.message ++ "\n") 1
  | .file e => .crash (.file e)
  | .url fault => .crash (.url fault)

theorem logEntries_succeeds (es : List LogEntry) (p : Progress) : ((logEntries es).run.run p).1 = .ok () := by
  induction es generalizing p with
  | nil => rfl
  | cons e es ih => exact ih _

theorem result_loadSources (w : World) (base : String) (sources : List String) (p : Progress) :
    ((loadSources w base sources).run.run p).1 = (Source.load w base sources).mapError stopFor := by
  unfold loadSources Source.load
  generalize (Source.loadLogged w base sources).run.run [] = loaded
  obtain ⟨result, entries⟩ := loaded
  have hlog := logEntries_succeeds entries p
  dsimp only
  rw [run_bind]
  generalize (logEntries entries).run.run p = noted at hlog ⊢
  obtain ⟨_ | _, q⟩ := noted
  · cases hlog
  · rcases result with (_ | _ | _) | _ <;> rfl

end CommandLine

namespace Source

end Source

end GraphDecl
