import GraphDecl.Files.Archive
import GraphDecl.Proofs.Files.Contents

/-!
What archives unpack to. Each member adds its file to those that are there, or directories only. Members that do not
lie below each other can be unpacked apart from each other, and in any order.
-/

namespace GraphDecl

open PathText

/-! ### Members -/

namespace Zip.Item

def place (item : Item) : List String := (parts item.name).filter (· ≠ "..")

def isFolder (item : Item) : Bool := endsInSlash item.name

def data (item : Item) : Except ArchiveFault ByteArray := item.packed >>= Packed.unpack

structure Extracts (item : Item) : Prop where
  named : item.name ≠ ""
  fits : Archive.fits (Archive.memberPath item.name) = true
  names : ∀ name ∈ item.place, IsEntryName name
  sound : item.isFolder = false → item.place ≠ [] ∧ ∃ bytes, item.data = .ok bytes

def file? (item : Item) : Option (String × ByteArray) :=
  if item.isFolder then none else item.data.toOption.map (Archive.memberPath item.name, ·)

/-- The item does not stand in the way of the other one: only a directory may lie above it or where it lies. -/
def LeavesRoom (item other : Item) : Prop :=
  item.isFolder = true ∨ ¬ item.place <+: other.place

theorem isStep_of_mem_place {item : Item} : ∀ name ∈ item.place, IsStep name := by
  intro name hname
  obtain ⟨hmem, hdown⟩ := List.mem_filter.mp hname
  exact isStep_of_mem_parts hmem (by simpa using hdown)

theorem memberPath_eq (item : Item) : Archive.memberPath item.name = ofPlace item.place := rfl

theorem of_file? {item : Item} {file : String × ByteArray} (h : item.file? = some file) :
    item.isFolder = false ∧ file.1 = ofPlace item.place := by
  unfold file? at h
  split at h
  · cases h
  · next hfolder =>
    obtain ⟨bytes, -, rfl⟩ := Option.map_eq_some_iff.mp h
    exact ⟨by simpa using hfolder, rfl⟩

end Zip.Item

namespace Archive

open FileTree FileAction

variable {t t' u : FileTree} {item : Zip.Item} {items : List Zip.Item}

/-! ### One member -/

theorem short_of_fits {path : String} (h : fits path = true) : path.utf8ByteSize ≤ longestPath := by
  simp only [fits, String.utf8ByteSize_append, decide_eq_true_eq] at h
  omega

/-- If a path fits below the temporary directory, so does that of its directory. -/
theorem fits_dropLast {place : List String} (h : fits (ofPlace place) = true) :
    fits (ofPlace place.dropLast) = true := by
  have hle := utf8ByteSize_dropLast_le place
  simp only [fits, String.utf8ByteSize_append, decide_eq_true_eq] at h ⊢
  omega

theorem succeeds_checkPath {path : String} {x : Unit} :
    (checkPath path).Succeeds t x t' ↔ fits path = true ∧ t' = t := by
  unfold checkPath
  split
  · next h => simp [h, succeeds_pure]
  · next h => simp [h, not_succeeds_throw]

def unpackAtPlace (item : Zip.Item) : FileAction Unit :=
  if item.name.isEmpty then throw (.archive .emptyName)
  else if endsInSlash item.name then do
    checkPath (memberPath item.name)
    let t ← get
    unless t.isDirectory (memberPath item.name) do FileAction.makeDirectory (memberPath item.name)
  else do
    let packed ← (item.packed.mapError .archive : Except FileError Zip.Packed)
    checkPath (memberPath item.name)
    FileAction.writeBytes (memberPath item.name) .empty
    let bytes ← (packed.unpack.mapError .archive : Except FileError ByteArray)
    FileAction.writeBytes (memberPath item.name) bytes

/-- Unpacking makes the directory of an item and then unpacks it there. -/
theorem unpackItem_eq (item : Zip.Item) :
    unpackItem item = (do
      let parent := parent (memberPath item.name)
      checkPath parent
      let t ← get
      (unless t.exists? parent do FileAction.makeDirectory parent)
      unpackAtPlace item) := by
  rw [unpackItem]
  refine bind_congr fun _ => bind_congr fun t => ?_
  dsimp only
  split
  · rfl
  · rfl

/-- No file is in the way of the item, and nothing where it is to be a file. -/
structure Free (t : FileTree) (item : Zip.Item) : Prop where
  clear : t.Clear item.place
  empty : item.isFolder = false → item.place ≠ [] → t.at? item.place = none

/-- From `t` to `t'` the item has been added, and nothing else. -/
structure Adds (item : Zip.Item) (t t' : FileTree) : Prop where
  root : ∃ entries, t' = .directory entries
  named : t'.Named
  files : (Node.files "/" t').Perm (item.file?.toList ++ Node.files "/" t)
  way : ∀ p, (t'.at? p).isSome = true → (t.at? p).isSome = true ∨ p <+: item.place
  file : ∀ p data, t'.at? p = some (.file data) →
    (∃ old, t.at? p = some (.file old)) ∨ item.isFolder = false ∧ p = item.place

theorem Free.of_grows (h : Free t item) (hgrows : Grows item.place.dropLast t u) : Free u item := by
  refine ⟨fun p hp data hdata => h.clear p hp data ((hgrows.keeps.files p List.not_mem_nil data).mp hdata),
    fun hfolder hne => ?_⟩
  rw [← Option.not_isSome_iff_eq_none]
  intro hsome
  rcases hgrows.way _ hsome with hsome | hprefix
  · rw [h.empty hfolder hne] at hsome
    cases hsome
  · have hlength := hprefix.length_le
    have hpos := List.length_pos_iff.mpr hne
    rw [List.length_dropLast] at hlength
    omega

/-- What an item adds to a tree that has grown towards it, it adds to the tree before. -/
theorem Adds.of_grows (hgrows : Grows item.place.dropLast t u) (h : Adds item u t') : Adds item t t' := by
  refine ⟨h.root, h.named, hgrows.files ▸ h.files, fun p hp => ?_, fun p data hdata => ?_⟩
  · rcases h.way p hp with hp | hp
    · exact (hgrows.way p hp).imp_right (List.IsPrefix.trans · (List.dropLast_prefix _))
    · exact .inr hp
  · refine (h.file p data hdata).imp_left ?_
    rintro ⟨old, hold⟩
    exact ⟨old, (hgrows.keeps.files p List.not_mem_nil old).mp hold⟩

/-- A file that is put where nothing is. -/
theorem adds_of_put {front : List String} {last : String} {entries : List (String × Node)} {bytes : ByteArray}
    (hroot : ∃ entries, u = .directory entries) (hnamed : u.Named) (hplace : item.place = front ++ [last])
    (hlast : IsEntryName last) (hhere : u.at? front = some (.directory entries)) (hnone : entries.lookup last = none)
    (hfolder : item.isFolder = false) (hdata : item.data = .ok bytes) :
    Adds item u (u.put (front ++ [last]) (.file bytes)) := by
  have hfile : item.file? = some (memberPath item.name, bytes) := by
    rw [Zip.Item.file?, hfolder, hdata]
    rfl
  have hsteps : ∀ name ∈ front ++ [last], IsStep name := by
    rw [← hplace]
    exact Zip.Item.isStep_of_mem_place
  refine ⟨?_, hnamed.put_file hhere hlast bytes, ?_, fun p hp => ?_, fun p data hdata => ?_⟩
  · obtain ⟨es, rfl⟩ := hroot
    cases front <;> exact ⟨_, rfl⟩
  · obtain ⟨before, behind, hold, hnew⟩ := Node.exists_files_put hhere last "/"
    rw [hnew, hold, hnone, hfile, foldl_join_root hsteps, Zip.Item.memberPath_eq, hplace]
    simp only [Node.files, Option.elim_none, Option.toList_some, List.append_nil, List.append_assoc]
    exact List.perm_middle
  · rw [hplace]
    by_cases hprefix : front ++ [last] <+: p
    · obtain ⟨rest, rfl⟩ := hprefix
      rw [List.append_assoc, List.singleton_append, Node.at?_put_self hhere] at hp
      cases rest with
      | nil => exact .inr (by rw [List.append_nil])
      | cons d rest => cases hp
    · exact .inl (Node.isSome_of_put hhere hprefix hp)
  · rw [hplace]
    by_cases hprefix : front ++ [last] <+: p
    · obtain ⟨rest, rfl⟩ := hprefix
      rw [List.append_assoc, List.singleton_append, Node.at?_put_self hhere] at hdata
      cases rest with
      | nil => exact .inr ⟨hfolder, List.append_nil _⟩
      | cons d rest => cases hdata
    · exact .inl ⟨data, ((Node.at?_put_of_not_prefix hhere hprefix).1 data).mp hdata⟩

theorem lookup_eq_none_of_free {front : List String} {last : String} {entries : List (String × Node)}
    (hfree : Free u item) (hfolder : item.isFolder = false) (hplace : item.place = front ++ [last])
    (hhere : u.at? front = some (.directory entries)) : entries.lookup last = none := by
  have hnone := hfree.empty hfolder (by simp [hplace])
  rw [hplace, at?_concat hhere] at hnone
  cases hentry : entries.lookup last with
  | none => rfl
  | some n =>
    rw [hentry] at hnone
    cases hnone

/-- A member that is no directory is written when its name is short enough and its data are sound. -/
theorem unpackAtPlace_file_iff {front : List String} {last : String} {entries : List (String × Node)}
    (hnamed : u.Named) (hfree : Free u item) (hplace : item.place = front ++ [last])
    (hhere : u.at? front = some (.directory entries)) (hname : item.name ≠ "") (hfolder : item.isFolder = false) :
    (unpackAtPlace item).Succeeds u () t' ↔ fits (memberPath item.name) = true ∧ IsEntryName last ∧
      ∃ bytes, item.data = .ok bytes ∧ t' = u.put (front ++ [last]) (.file bytes) := by
  have hstep : IsStep last := Zip.Item.isStep_of_mem_place last (by rw [hplace]; simp)
  have hnone : entries.lookup last = none := lookup_eq_none_of_free hfree hfolder hplace hhere
  have hfree : ∀ es, entries.lookup last ≠ some (.directory es) := by
    intro es hes
    rw [hnone] at hes
    cases hes
  rw [unpackAtPlace, if_neg (by simpa using hname), if_neg (by simpa [Zip.Item.isFolder] using hfolder),
    Zip.Item.memberPath_eq, hplace]
  constructor
  · intro h
    obtain ⟨packed, v, hlift, h⟩ := succeeds_bind.mp h
    obtain ⟨hpacked, hv⟩ := succeeds_lift.mp hlift
    rw [hv] at h
    obtain ⟨_, v, hcheck, h⟩ := succeeds_bind.mp h
    obtain ⟨hfits, hv⟩ := succeeds_checkPath.mp hcheck
    rw [hv] at h
    obtain ⟨_, w, hempty, h⟩ := succeeds_bind.mp h
    obtain ⟨-, hlast, -, hw⟩ := (writeBytes_ofPlace_iff hnamed hhere hstep).mp hempty
    obtain ⟨bytes, v', hlift, h⟩ := succeeds_bind.mp h
    obtain ⟨hbytes, hv'⟩ := succeeds_lift.mp hlift
    rw [hv', hw] at h
    refine ⟨hfits, hlast, bytes, ?_, ((writeBytes_again_iff hnamed hhere hlast).mp h).2⟩
    exact bind_eq_ok_iff.mpr ⟨packed, mapError_eq_ok_iff.mp hpacked, mapError_eq_ok_iff.mp hbytes⟩
  · rintro ⟨hfits, hlast, bytes, hdata, rfl⟩
    obtain ⟨packed, hpacked, hbytes⟩ := bind_eq_ok_iff.mp hdata
    refine succeeds_bind.mpr ⟨packed, u, succeeds_lift.mpr ⟨mapError_eq_ok_iff.mpr hpacked, rfl⟩, ?_⟩
    refine succeeds_bind.mpr ⟨(), u, succeeds_checkPath.mpr ⟨hfits, rfl⟩, ?_⟩
    refine succeeds_bind.mpr ⟨(), _, (writeBytes_ofPlace_iff hnamed hhere hstep).mpr
      ⟨short_of_fits hfits, hlast, hfree, rfl⟩, ?_⟩
    exact succeeds_bind.mpr ⟨bytes, _, succeeds_lift.mpr ⟨mapError_eq_ok_iff.mpr hbytes, rfl⟩,
      (writeBytes_again_iff hnamed hhere hlast).mpr ⟨short_of_fits hfits, rfl⟩⟩

theorem unpackAtPlace_folder (hname : item.name ≠ "") (hfolder : item.isFolder = true) :
    (unpackAtPlace item).Succeeds u () t' ↔ fits (ofPlace item.place) = true ∧
      (unless FileTree.isDirectory u (ofPlace item.place) do
        FileAction.makeDirectory (ofPlace item.place) : FileAction Unit).Succeeds u () t' := by
  rw [unpackAtPlace, if_neg (by simpa using hname), if_pos (show endsInSlash item.name = true from hfolder),
    Zip.Item.memberPath_eq, succeeds_bind]
  constructor
  · rintro ⟨_, v, hcheck, hrest⟩
    obtain ⟨hfits, rfl⟩ := succeeds_checkPath.mp hcheck
    obtain ⟨v, w, hget, hmake⟩ := succeeds_bind.mp hrest
    obtain ⟨rfl, rfl⟩ := succeeds_get.mp hget
    exact ⟨hfits, hmake⟩
  · rintro ⟨hfits, h⟩
    exact ⟨(), u, succeeds_checkPath.mpr ⟨hfits, rfl⟩, succeeds_bind.mpr ⟨u, u, succeeds_get.mpr ⟨rfl, rfl⟩, h⟩⟩

/-- What unpacking one member does to a tree in which there is room for it. -/
theorem adds_of_unpackAtPlace (hroot : ∃ entries, u = .directory entries) (hnamed : u.Named) (hfree : Free u item)
    (hparent : ∃ entries, u.at? item.place.dropLast = some (.directory entries))
    (h : (unpackAtPlace item).Succeeds u () t') : item.Extracts ∧ Adds item u t' := by
  have hname : item.name ≠ "" := by
    intro hname
    rw [unpackAtPlace, if_pos (by simp [hname])] at h
    exact not_succeeds_throw h
  cases hfolder : item.isFolder with
  | true =>
    obtain ⟨hfits, hmake⟩ := (unpackAtPlace_folder hname hfolder).mp h
    obtain ⟨-, hnames, hgrows, -⟩ := grows_of_unless hroot hnamed Zip.Item.isStep_of_mem_place hfree.clear
      (fun hdir => by
        obtain ⟨there, -, hthere, -⟩ := isDirectory_iff.mp hdir
        exact ⟨there, hthere⟩) hmake
    refine ⟨⟨hname, hfits, hnames, fun hno => by rw [hfolder] at hno; cases hno⟩, hgrows.exists_root hroot,
      hgrows.named hnamed hnames, ?_, hgrows.way, fun p data hdata => ?_⟩
    · rw [hgrows.files, Zip.Item.file?, if_pos hfolder]
      exact List.Perm.refl _
    · exact .inl ⟨data, (hgrows.keeps.files p List.not_mem_nil data).mp hdata⟩
  | false =>
    rcases List.eq_nil_or_concat' item.place with hnil | ⟨front, last, hplace⟩
    · rw [unpackAtPlace, if_neg (by simpa using hname), if_neg (by simpa [Zip.Item.isFolder] using hfolder),
        Zip.Item.memberPath_eq, hnil] at h
      obtain ⟨packed, v, -, h⟩ := succeeds_bind.mp h
      obtain ⟨_, v', -, h⟩ := succeeds_bind.mp h
      obtain ⟨_, w, hempty, -⟩ := succeeds_bind.mp h
      exact absurd hempty not_succeeds_writeBytes_root
    · rw [hplace, List.dropLast_concat] at hparent
      obtain ⟨entries, hhere⟩ := hparent
      obtain ⟨hfits, hlast, bytes, hdata, rfl⟩ :=
        (unpackAtPlace_file_iff hnamed hfree hplace hhere hname hfolder).mp h
      have hnone := lookup_eq_none_of_free hfree hfolder hplace hhere
      refine ⟨⟨hname, hfits, ?_, fun _ => ⟨by simp [hplace], bytes, hdata⟩⟩,
        adds_of_put hroot hnamed hplace hlast hhere hnone hfolder hdata⟩
      rw [hplace, List.forall_mem_append, List.forall_mem_singleton]
      exact ⟨hnamed front (by rw [hhere]; rfl), hlast⟩

theorem exists_unpackAtPlace (hroot : ∃ entries, u = .directory entries) (hnamed : u.Named) (hfree : Free u item)
    (hparent : ∃ entries, u.at? item.place.dropLast = some (.directory entries)) (h : item.Extracts) :
    ∃ t', (unpackAtPlace item).Succeeds u () t' := by
  cases hfolder : item.isFolder with
  | true =>
    obtain ⟨t', ht'⟩ := exists_unless (u.isDirectory (ofPlace item.place)) hroot (short_of_fits h.fits) h.names hfree.clear
    exact ⟨t', (unpackAtPlace_folder h.named hfolder).mpr ⟨h.fits, ht'⟩⟩
  | false =>
    obtain ⟨hne, bytes, hdata⟩ := h.sound hfolder
    have hplace : item.place = item.place.dropLast ++ [item.place.getLast hne] :=
      (List.dropLast_append_getLast hne).symm
    obtain ⟨entries, hhere⟩ := hparent
    exact ⟨_, (unpackAtPlace_file_iff hnamed hfree hplace hhere h.named hfolder).mpr
      ⟨h.fits, h.names _ (List.getLast_mem hne), bytes, hdata, rfl⟩⟩

/-- An item is unpacked in two steps, the directory of its place and then the item there. -/
theorem succeeds_unpackItem : (unpackItem item).Succeeds t () t' ↔ fits (ofPlace item.place.dropLast) = true ∧
    ∃ u, (unless t.exists? (ofPlace item.place.dropLast) do
      FileAction.makeDirectory (ofPlace item.place.dropLast) : FileAction Unit).Succeeds t () u ∧
        (unpackAtPlace item).Succeeds u () t' := by
  rw [unpackItem_eq, Zip.Item.memberPath_eq, parent_ofPlace Zip.Item.isStep_of_mem_place, succeeds_bind]
  constructor
  · rintro ⟨_, v, hcheck, hrest⟩
    obtain ⟨hfits, rfl⟩ := succeeds_checkPath.mp hcheck
    obtain ⟨v, w, hget, hitems⟩ := succeeds_bind.mp hrest
    obtain ⟨rfl, rfl⟩ := succeeds_get.mp hget
    obtain ⟨_, u, hmake, hitem⟩ := succeeds_bind.mp hitems
    exact ⟨hfits, u, hmake, hitem⟩
  · rintro ⟨hfits, u, hmake, hitem⟩
    exact ⟨(), t, succeeds_checkPath.mpr ⟨hfits, rfl⟩, succeeds_bind.mpr ⟨t, t, succeeds_get.mpr ⟨rfl, rfl⟩,
      succeeds_bind.mpr ⟨(), u, hmake, hitem⟩⟩⟩

/-- The directories on the way to the place of an item. -/
theorem grows_of_parent (hroot : ∃ entries, t = .directory entries) (hnamed : t.Named) (hfree : Free t item)
    (h : (unless t.exists? (ofPlace item.place.dropLast) do
      FileAction.makeDirectory (ofPlace item.place.dropLast) : FileAction Unit).Succeeds t () u) :
    (∀ name ∈ item.place.dropLast, IsEntryName name) ∧ Grows item.place.dropLast t u ∧
      ∃ es, u.at? item.place.dropLast = some (.directory es) :=
  (grows_of_unless hroot hnamed (fun name hname => Zip.Item.isStep_of_mem_place name (List.mem_of_mem_dropLast hname))
    (fun p hp => hfree.clear p (hp.trans (List.dropLast_prefix _))) exists?_iff.mp h).2

/-- What unpacking does to a tree in which nothing is in the way of the item. -/
theorem adds_of_unpackItem (hroot : ∃ entries, t = .directory entries) (hnamed : t.Named) (hfree : Free t item)
    (h : (unpackItem item).Succeeds t () t') : item.Extracts ∧ Adds item t t' := by
  obtain ⟨-, u, hmake, hitem⟩ := succeeds_unpackItem.mp h
  obtain ⟨hnames, hgrows, hparent⟩ := grows_of_parent hroot hnamed hfree hmake
  obtain ⟨hextracts, hadds⟩ := adds_of_unpackAtPlace (hgrows.exists_root hroot) (hgrows.named hnamed hnames)
    (hfree.of_grows hgrows) hparent hitem
  exact ⟨hextracts, .of_grows hgrows hadds⟩

/-- An item with nothing in its way can be unpacked. -/
theorem exists_unpackItem (hroot : ∃ entries, t = .directory entries) (hnamed : t.Named) (hfree : Free t item)
    (h : item.Extracts) : ∃ t', (unpackItem item).Succeeds t () t' := by
  obtain ⟨u, hmake⟩ := exists_unless (t.exists? (ofPlace item.place.dropLast)) hroot
    (short_of_fits (fits_dropLast h.fits))
    (fun name hname => h.names name (List.mem_of_mem_dropLast hname))
    fun p hp => hfree.clear p (hp.trans (List.dropLast_prefix _))
  obtain ⟨hnames, hgrows, hparent⟩ := grows_of_parent hroot hnamed hfree hmake
  obtain ⟨t', ht'⟩ := exists_unpackAtPlace (hgrows.exists_root hroot) (hgrows.named hnamed hnames)
    (hfree.of_grows hgrows) hparent h
  exact ⟨t', succeeds_unpackItem.mpr ⟨fits_dropLast h.fits, u, hmake, ht'⟩⟩

/-! ### All members -/

/-- No item stands in the way of another one. -/
def Apart (items : List Zip.Item) : Prop :=
  items.Pairwise fun item other => item.LeavesRoom other ∧ other.LeavesRoom item

/-- The tree holds what the items unpack to, and nothing else. -/
structure Unpacked (items : List Zip.Item) (t : FileTree) : Prop where
  root : ∃ entries, t = .directory entries
  named : t.Named
  files : (Node.files "/" t).Perm (items.filterMap Zip.Item.file?)
  way : ∀ p, (t.at? p).isSome = true → p = [] ∨ ∃ item ∈ items, p <+: item.place
  file : ∀ p data, t.at? p = some (.file data) → ∃ item ∈ items, item.isFolder = false ∧ p = item.place

theorem unpacked_nil : Unpacked [] (.directory []) := by
  have hempty (p : List String) (h : ((Node.directory []).at? p).isSome = true) : p = [] := by
    cases p with
    | nil => rfl
    | cons c p => cases h
  refine ⟨⟨[], rfl⟩, fun p hp => ?_, .refl _, fun p hp => .inl (hempty p hp), fun p data hdata => ?_⟩
  · rw [hempty p hp]
    exact fun _ hname => nomatch hname
  · obtain rfl := hempty p (by rw [hdata]; rfl)
    cases hdata

/-- There is room for an item that is apart from those that have been unpacked. -/
theorem Unpacked.free (h : Unpacked items t)
    (hapart : ∀ other ∈ items, other.LeavesRoom item ∧ item.LeavesRoom other) : Free t item := by
  refine ⟨fun p hp data hdata => ?_, fun hfolder hne => ?_⟩
  · obtain ⟨other, hother, hfile, rfl⟩ := h.file p data hdata
    rcases (hapart other hother).1 with hfolder | hroom
    · rw [hfile] at hfolder
      cases hfolder
    · exact hroom hp
  · rw [← Option.not_isSome_iff_eq_none]
    intro hsome
    rcases h.way _ hsome with hnil | ⟨other, hother, hprefix⟩
    · exact hne hnil
    · rcases (hapart other hother).2 with hyes | hroom
      · rw [hfolder] at hyes
        cases hyes
      · exact hroom hprefix

/-- The invariant of unpacking goes on from item to item. -/
theorem Unpacked.step (h : Unpacked items t) (hadds : Adds item t t') : Unpacked (items ++ [item]) t' := by
  refine ⟨hadds.root, hadds.named, ?_, fun p hp => ?_, fun p data hdata => ?_⟩
  · rw [List.filterMap_append]
    refine hadds.files.trans (List.perm_append_comm.trans ?_)
    cases hfile : item.file? with
    | none => simpa [hfile] using h.files
    | some file => simpa [hfile] using h.files.append_right [file]
  · rcases hadds.way p hp with hp | hp
    · rcases h.way p hp with hnil | ⟨other, hother, hprefix⟩
      · exact .inl hnil
      · exact .inr ⟨other, List.mem_append_left _ hother, hprefix⟩
    · exact .inr ⟨item, by simp, hp⟩
  · rcases hadds.file p data hdata with ⟨old, hold⟩ | ⟨hfolder, hp⟩
    · obtain ⟨other, hother, hfile⟩ := h.file p old hold
      exact ⟨other, List.mem_append_left _ hother, hfile⟩
    · exact ⟨item, by simp, hfolder, hp⟩

theorem succeeds_forM_cons : ((item :: items).forM unpackItem).Succeeds t () t' ↔
    ∃ u, (unpackItem item).Succeeds t () u ∧ (items.forM unpackItem).Succeeds u () t' := by
  rw [List.forM_eq_forM, List.forM_cons, succeeds_bind]
  constructor
  · rintro ⟨_, u, hitem, hrest⟩
    exact ⟨u, hitem, hrest⟩
  · rintro ⟨u, hitem, hrest⟩
    exact ⟨(), u, hitem, hrest⟩

/-- Items that are apart from each other, and from those that have been unpacked, are unpacked one after the other. -/
theorem Unpacked.run {done : List Zip.Item} (h : Unpacked done t) (hapart : Apart (done ++ items)) :
    (∀ t', (items.forM unpackItem).Succeeds t () t' →
      (∀ item ∈ items, item.Extracts) ∧ Unpacked (done ++ items) t') ∧
    ((∀ item ∈ items, item.Extracts) → ∃ t', (items.forM unpackItem).Succeeds t () t') := by
  induction items generalizing done t with
  | nil =>
    refine ⟨fun t' ht' => ?_, fun _ => ⟨t, succeeds_pure.mpr ⟨rfl, rfl⟩⟩⟩
    obtain ⟨-, rfl⟩ := succeeds_pure.mp ht'
    rw [List.append_nil] at hapart ⊢
    exact ⟨(fun _ hitem => nomatch hitem), h⟩
  | cons item items ih =>
    have hfree : Free t item := h.free fun other hother =>
      (List.pairwise_append.mp hapart).2.2 other hother item List.mem_cons_self
    rw [List.append_cons] at hapart
    constructor
    · intro t' ht'
      obtain ⟨u, hitem, hrest⟩ := succeeds_forM_cons.mp ht'
      obtain ⟨hextracts, hadds⟩ := adds_of_unpackItem h.root h.named hfree hitem
      obtain ⟨hall, hunpacked⟩ := (ih (h.step hadds) hapart).1 t' hrest
      rw [List.append_cons]
      exact ⟨List.forall_mem_cons.mpr ⟨hextracts, hall⟩, hunpacked⟩
    · intro hall
      rw [List.forall_mem_cons] at hall
      obtain ⟨u, hitem⟩ := exists_unpackItem h.root h.named hfree hall.1
      obtain ⟨-, hadds⟩ := adds_of_unpackItem h.root h.named hfree hitem
      obtain ⟨t', ht'⟩ := (ih (h.step hadds) hapart).2 hall.2
      exact ⟨t', succeeds_forM_cons.mpr ⟨u, hitem, ht'⟩⟩

theorem unpack_eq_ok_iff : unpack items = .ok t ↔ (items.forM unpackItem).Succeeds (.directory []) () t := by
  unfold unpack FileAction.Succeeds
  split
  · next u hrun =>
    rw [hrun]
    constructor
    · rintro ⟨⟩
      rfl
    · rintro ⟨⟩
      rfl
  · next e u hrun =>
    rw [hrun]
    exact ⟨nofun, nofun⟩

/-- An archive whose members are apart from each other can be unpacked if each of them can be. -/
theorem exists_unpack_iff (hapart : Apart items) :
    (∃ t, unpack items = .ok t) ↔ ∀ item ∈ items, item.Extracts := by
  have hrun : (∀ t, (items.forM unpackItem).Succeeds (.directory []) () t →
      (∀ item ∈ items, item.Extracts) ∧ Unpacked ([] ++ items) t) ∧ _ := unpacked_nil.run hapart
  simp only [unpack_eq_ok_iff]
  exact ⟨fun ⟨t, ht⟩ => (hrun.1 t ht).1, hrun.2⟩

/-- Items that stand apart are all there in the end. -/
theorem unpacked_of_unpack (hapart : Apart items) (h : unpack items = .ok t) : Unpacked items t :=
  ((unpacked_nil.run hapart).1 t (unpack_eq_ok_iff.mp h)).2

end Archive

end GraphDecl
