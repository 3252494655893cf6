import GraphDecl.Proofs.Files.Subtrees
import GraphDecl.Proofs.Sources.UniqueFiles

/-!
Base paths. The base is put in front of each pattern and is read as a part of it, so that it stands for itself only if
its wildcards match nothing else. If it has none, what is found below it does not depend on where it lies.
-/

namespace GraphDecl

open PathText Glob

/-! ### Texts with something in front -/

/-- Texts with the same beginning are ordered by what follows it. -/
theorem append_le_append_iff (front a b : String) : front ++ a ≤ front ++ b ↔ a ≤ b := by
  rw [← not_lt, ← not_lt, String.lt_iff_toList_lt, String.lt_iff_toList_lt, String.toList_append, String.toList_append]
  induction front.toList with
  | nil => simp
  | cons c cs ih => simpa using ih

theorem sortTexts_map (front : String) (texts : List String) :
    sortTexts (texts.map (front ++ ·)) = (sortTexts texts).map (front ++ ·) := by
  rw [sortTexts, sortTexts, List.map_mergeSort]
  exact fun a _ b _ => decide_eq_decide.mpr (append_le_append_iff front a b).symm

theorem firstOccurrences_map (front : String) (texts : List String) :
    firstOccurrences (texts.map (front ++ ·)) = (firstOccurrences texts).map (front ++ ·) := by
  induction texts with
  | nil => rfl
  | cons text texts ih =>
    rw [List.map_cons, firstOccurrences_cons, firstOccurrences_cons, ih, List.map_cons, List.filter_map]
    congr 3
    funext other
    simp [String.append_right_inj]

namespace Source

variable {t : FileTree} {base source p : String} {place : List String} {entries : List (String × Node)}

/-! ### The base as a pattern -/

/-- A path behind a base leads from where the base leads as a pattern. -/
theorem leads_join (hroot : ∃ entries, t = .directory entries) (base : String) {q : String}
    (hq : isAbsolute q = false) {there : List String} :
    Leads t (components (join base q)) [] there ↔
      ∃ mid, Leads t (components base) [] mid ∧ Leads t (components q) mid there := by
  have hslash {here mid : List String} :
      Leads t [""] here mid ↔ mid = here ∧ ∃ entries, t.at? here = some (.directory entries) := by
    rw [leads_of_plain (by decide)]
    constructor
    · intro hfollow
      obtain ⟨entries, hentries⟩ := FileTree.exists_entries_of_follow hfollow
      rw [FileTree.follow_slash entries hentries] at hfollow
      cases hfollow
      exact ⟨rfl, entries, hentries⟩
    · rintro ⟨rfl, entries, hentries⟩
      exact FileTree.follow_slash entries hentries
  rcases join_cases base hq with ⟨rfl, hjoin⟩ | ⟨front, rfl, hjoin⟩ | ⟨-, -, hjoin⟩
  · obtain ⟨entries, rfl⟩ := hroot
    rw [hjoin, show components "" = [""] from rfl]
    simp only [hslash]
    constructor
    · exact fun h => ⟨[], ⟨rfl, entries, rfl⟩, h⟩
    · rintro ⟨mid, ⟨rfl, -⟩, h⟩
      exact h
  · have hfront : components (front ++ "/") = components front ++ [""] := by
      rw [← String.append_empty (s := front ++ "/"), components_append_slash]
      rfl
    rw [hjoin, components_append_slash, hfront, leads_append]
    refine exists_congr fun mid => and_congr_left fun hmid => ?_
    rw [leads_append]
    simp only [hslash]
    constructor
    · intro hlead
      obtain ⟨way, hway, hfollow⟩ := hmid
      obtain ⟨c, cs, rfl⟩ := List.exists_cons_of_ne_nil (hway.ne_nil (components_ne_nil q))
      exact ⟨mid, hlead, rfl, FileTree.exists_entries_of_follow hfollow⟩
    · rintro ⟨_, hlead, rfl, -⟩
      exact hlead
  · rw [hjoin, components_append_slash, leads_append]

/-- The base, as a pattern, leads to no directory but its own. -/
def ReadLiterally (t : FileTree) (base : String) (place : List String) : Prop :=
  ∀ mid, (∃ entries, t.at? mid = some (.directory entries)) → (Leads t (components base) [] mid ↔ mid = place)

/-- A base path without wildcards is read literally. -/
theorem readLiterally_of_plain (h : t.Stands base place entries) (hplain : hasWildcard base.toList = false) :
    ReadLiterally t base place := by
  intro mid _
  rw [leads_of_plain fun c hc => plain_of_mem_components hplain hc, (FileTree.placeOf_eq_ok_iff.mp h.leads).2.2,
    Except.ok.injEq]
  exact eq_comm

/-- Patterns lead from the directory alone exactly if the base is read literally. -/
theorem leads_from_base_iff (hroot : ∃ entries, t = .directory entries) (h : t.Stands base place entries) :
    (∀ q, isAbsolute q = false → ".." ∉ components q → ∀ there,
      (Leads t (components (join base q)) [] there ↔ Leads t (components q) place there)) ↔
      ReadLiterally t base place := by
  constructor
  · -- the pattern `.` leads to the directories themselves
    rintro hlaw mid ⟨es, hes⟩
    have hdot (here : List String) (hdir : ∃ entries, t.at? here = some (.directory entries)) {there : List String} :
        Leads t (components ".") here there ↔ there = here := by
      obtain ⟨entries, hentries⟩ := hdir
      have hfollow : t.follow here ["."] = .ok here := by
        rw [FileTree.follow, hentries]
        rfl
      rw [show components "." = ["."] from rfl, leads_of_plain (by decide), hfollow, Except.ok.injEq]
      exact eq_comm
    have hmid := hlaw "." (by decide) (by decide) mid
    rw [leads_join hroot base (by decide), hdot place ⟨entries, h.holds⟩] at hmid
    rw [← hmid]
    constructor
    · exact fun hlead => ⟨mid, hlead, (hdot mid ⟨es, hes⟩).mpr rfl⟩
    · rintro ⟨mid', hlead, hlast⟩
      have hdir : ∃ entries, t.at? mid' = some (.directory entries) := by
        obtain ⟨way, hway, hfollow⟩ := hlast
        obtain ⟨c, cs, rfl⟩ := List.exists_cons_of_ne_nil (hway.ne_nil (components_ne_nil "."))
        exact FileTree.exists_entries_of_follow hfollow
      rwa [(hdot mid' hdir).mp hlast]
  · intro hliteral q hq _ there
    rw [leads_join hroot base hq]
    constructor
    · rintro ⟨mid, hlead, way, hway, hfollow⟩
      obtain ⟨c, cs, rfl⟩ := List.exists_cons_of_ne_nil (hway.ne_nil (components_ne_nil q))
      obtain rfl := (hliteral mid (FileTree.exists_entries_of_follow hfollow)).mp hlead
      exact ⟨c :: cs, hway, hfollow⟩
    · exact fun hlead => ⟨place, (hliteral place ⟨entries, h.holds⟩).mpr rfl, hlead⟩

/-! ### Sources below a base -/

/-- The patterns are relative and take no step back. -/
def IsRelative (source : String) : Prop :=
  ∀ p ∈ patterns source, isAbsolute (Text.trimmed p) = false ∧ ".." ∉ components (Text.trimmed p)

/-- Paths behind so many bytes are not too long, whatever the patterns find among these entries. -/
def HasRoom (bytes : Nat) (source : String) (entries : List (String × Node)) : Prop :=
  ∀ there, ((Node.directory entries).at? there).isSome = true →
    bytes + source.utf8ByteSize + reach there ≤ FileTree.longestPath

theorem utf8ByteSize_trimmed_le (hp : p ∈ patterns source) : (Text.trimmed p).utf8ByteSize ≤ source.utf8ByteSize := by
  have hsource : Text.joinWith "," (Text.pieces ',' source) = source :=
    ((Text.pieces_eq_iff ',' rfl (Text.pieces_ne_nil ',' source)).mp rfl).2
  obtain ⟨front, back, hjoin⟩ := Text.exists_joinWith_eq "," (List.mem_filter.mp hp).1
  have htrimmed : (Text.trimmed p).utf8ByteSize ≤ p.utf8ByteSize :=
    utf8ByteSize_le_of_sublist (by simpa [Text.trimmed] using Text.trim_sublist p.toList)
  rw [← hsource, hjoin, String.utf8ByteSize_append, String.utf8ByteSize_append]
  omega

theorem bounded_of_matched (hproper : FileTree.Proper (.directory entries)) (hrel : IsRelative source)
    (hp : p ∈ patterns source) {row : List String} (hrow : matched (.directory entries) "" p = .ok row) {m : String}
    (hm : m ∈ row) : Bounded (.directory entries) (Text.trimmed p).toList m := by
  obtain ⟨habsolute, hback⟩ := hrel p hp
  rw [matched, withBase, join_empty_left] at hrow
  exact bounded_of_mem_expand hproper (by rwa [String.ofList_toList]) (by rwa [String.ofList_toList]) hrow hm

/-- What a relative source finds is relative, and leads nowhere up. -/
theorem relative_of_paths (hproper : FileTree.Proper (.directory entries)) (hrel : IsRelative source)
    {found : List String} (hfound : Glob.paths (.directory entries) "" source = .ok found) :
    ∀ m ∈ found, isAbsolute m = false ∧ ".." ∉ components m := by
  intro m hm
  obtain ⟨p, hp, row, hrow, hm⟩ := (mem_iff_of_paths hfound).mp hm
  obtain ⟨habsolute, hback, -⟩ := bounded_of_matched hproper hrel hp hrow hm
  exact ⟨habsolute, hback⟩

/-- What a source finds below a base without wildcards is what it finds in the directory itself. -/
theorem paths_within (h : t.Stands base place entries) (hbase : IsBare base)
    (hproper : FileTree.Proper (.directory entries)) (hplain : hasWildcard base.toList = false)
    (hrel : IsRelative source) (hroom : HasRoom (within base).utf8ByteSize source entries) :
    Glob.paths t base source = List.map (join base) <$> Glob.paths (.directory entries) "" source := by
  have hmatched : ∀ p ∈ patterns source, sortTexts <$> matched t base p =
      List.map (within base ++ ·) <$> sortTexts <$> matched (.directory entries) "" p := by
    intro p hp
    obtain ⟨habsolute, hback⟩ := hrel p hp
    have hwithin : expand t false ((within base).toList ++ (Text.trimmed p).toList) = _ :=
      expand_within h hbase hproper hplain (by rwa [String.ofList_toList]) (by rwa [String.ofList_toList])
        fun there hthere => by
          have := hroom there hthere
          have := utf8ByteSize_trimmed_le hp
          rw [String.ofList_toList]
          omega
    rw [matched, matched, withBase, withBase, join_empty_left, join_eq_within_append hbase.1 habsolute,
      String.toList_append, hwithin]
    cases expand (.directory entries) false (Text.trimmed p).toList with
    | error e => rfl
    | ok found => exact congrArg Except.ok (sortTexts_map _ found)
  have hall : Glob.paths t base source =
      List.map (within base ++ ·) <$> Glob.paths (.directory entries) "" source := by
    rw [paths_eq_bind, paths_eq_bind, mapM_eq_map hmatched]
    cases (patterns source).mapM fun p => sortTexts <$> matched (.directory entries) "" p with
    | error e => rfl
    | ok rows =>
      refine congrArg Except.ok ?_
      rw [← List.map_flatten, firstOccurrences_map]
  rw [hall]
  cases hfound : Glob.paths (.directory entries) "" source with
  | error e => rfl
  | ok found =>
    refine congrArg Except.ok (List.map_congr_left fun m hm => ?_)
    exact (join_eq_within_append hbase.1 (relative_of_paths hproper hrel hfound m hm).1).symm

/-- What the patterns of a source find in a directory itself, seen from there. -/
structure FindsBelow (entries : List (String × Node)) (source : String) (found : List String) : Prop where
  /-- Each path leads where a pattern does, unless `**` at the end of a pattern finds one that leads nowhere. -/
  sound : ∀ m ∈ found, ∃ p ∈ patterns source, match FileTree.denoted? (.directory entries) m with
    | some there => Leads (.directory entries) (components (Text.trimmed p)) [] there
    | none => EndsRecursive (Text.trimmed p)
  complete : HasRoom 0 source entries → ∀ p ∈ patterns source, ∀ there,
    Leads (.directory entries) (components (Text.trimmed p)) [] there →
      ∃ m ∈ found, FileTree.denoted? (.directory entries) m = some there

/-- A relative source without the character of code 0 can be searched for in every directory. -/
theorem exists_findsBelow (hproper : FileTree.Proper (.directory entries)) (hnull : '\x00' ∉ source.toList)
    (hrel : IsRelative source) :
    ∃ found, Glob.paths (.directory entries) "" source = .ok found ∧ FindsBelow entries source found := by
  have hpattern {p : String} (hp : p ∈ patterns source) : '\x00' ∉ (Text.trimmed p).toList := by
    have hwith : '\x00' ∉ (withBase "" p).toList := null_not_mem_withBase (by simp) hnull hp
    rwa [withBase, join_empty_left] at hwith
  have hmatched {p : String} : matched (.directory entries) "" p =
      expand (.directory entries) false (Text.trimmed p).toList := by
    rw [matched, withBase, join_empty_left]
  have hpaths : ∃ found, Glob.paths (.directory entries) "" source = .ok found := by
    refine exists_paths_iff.mpr fun p hp => ?_
    obtain ⟨row, hrow, -⟩ := exists_expand hproper false (hpattern hp)
    exact ⟨row, hmatched.trans hrow⟩
  obtain ⟨found, hfound⟩ := hpaths
  refine ⟨found, hfound, ⟨fun m hm => ?_, fun hroom p hp there hlead => ?_⟩⟩
  · obtain ⟨p, hp, row, hrow, hm⟩ := (mem_iff_of_paths hfound).mp hm
    rw [hmatched] at hrow
    refine ⟨p, hp, ?_⟩
    split
    · next there hthere =>
      have hlead := leads_of_mem_expand hproper hrow hm (FileTree.denoted?_eq_some_iff.mp hthere)
      rwa [String.ofList_toList] at hlead
    · next hnowhere =>
      refine (exists_place_or_endsRecursive hproper hrow hm).resolve_left ?_
      rw [hnowhere]
      nofun
  · obtain ⟨way, hway, hfollow⟩ := hlead
    obtain ⟨row, hrow⟩ := exists_paths_iff.mp ⟨found, hfound⟩ p hp
    have hne := hway.ne_nil (components_ne_nil _)
    have hslash := slash_not_mem_of_fits (fun c hc => slash_not_mem_of_mem_components hc) hway
    have hplace : FileTree.placeOf (.directory entries) (Text.joinWith "/" way) = .ok there := by
      refine FileTree.placeOf_eq_ok_iff.mpr ⟨?_, ?_, ?_⟩
      · refine null_not_mem_joinWith (null_not_mem_of_fits (fun c hc hmem => hpattern hp ?_) hway)
        obtain ⟨piece, hpiece, rfl⟩ := List.mem_map.mp hc
        exact Text.mem_of_mem_splitAt hpiece (by simpa using hmem)
      · have hlong := reach_way_le (hrel p hp).2 hway hfollow
        have htext := utf8ByteSize_joinWith hne
        have hcomponents := utf8ByteSize_joinWith (components_ne_nil (Text.trimmed p))
        have htrimmed := utf8ByteSize_trimmed_le hp
        have := hroom there (FileTree.isSome_of_follow (t := .directory entries) rfl hfollow)
        rw [joinWith_components] at hcomponents
        omega
      · rwa [components_joinWith hne hslash]
    obtain ⟨m, hm, hdenoted, -⟩ :=
      exists_mem_expand hproper (hmatched.symm.trans hrow) (by rwa [String.ofList_toList]) hplace nofun
    exact ⟨m, (mem_iff_of_paths hfound).mpr ⟨p, hp, row, hrow, hm⟩,
      FileTree.denoted?_eq_some_iff.mpr (FileTree.placeOf_eq_ok_iff.mp hdenoted).2.2⟩

end Source

end GraphDecl
