import GraphDecl.Proofs.Files.Searches

/-!
Searches below a directory. If the path of the directory has no wildcards, what is found below it does not depend on
where the directory stands: only what is in front of the paths does.
-/

namespace GraphDecl

/-! ### Paths below a directory -/

namespace PathText

variable {base dir p name : String}

/-- What the paths below a directory start with. -/
def within (base : String) : String := join base ""

/-- The path of a directory without slashes to spare at its end. -/
def IsBare (base : String) : Prop := base ≠ "" ∧ (endsInSlash base = true → ∀ c ∈ base.toList, c = '/')

theorem within_cases (hne : base ≠ "") :
    endsInSlash base = false ∧ within base = base ++ "/" ∨ endsInSlash base = true ∧ within base = base := by
  cases hslash : endsInSlash base with
  | false => exact .inl ⟨rfl, (join_of_plain rfl hne hslash).trans String.append_empty⟩
  | true => exact .inr ⟨rfl, (join_of_endsInSlash rfl hslash).trans String.append_empty⟩

theorem endsInSlash_within (hne : base ≠ "") : endsInSlash (within base) = true := by
  rcases within_cases hne with ⟨-, hwithin⟩ | ⟨hslash, hwithin⟩
  · rw [hwithin, endsInSlash_append_slash]
  · rw [hwithin, hslash]

/-- Joining a relative path to a directory is writing it behind the directory and one slash. -/
theorem join_eq_within_append (hne : base ≠ "") (hname : isAbsolute name = false) :
    join base name = within base ++ name := by
  rw [← join_join_empty hne hname]
  exact join_of_endsInSlash hname (endsInSlash_within hne)

/-- A path below a directory, seen from outside. An empty one may stand for the path of the directory. -/
def Inside (base dir whole : String) : Prop := whole = within base ++ dir ∨ dir = "" ∧ whole = base

theorem Inside.join_eq {whole : String} (h : Inside base dir whole) (hne : base ≠ "")
    (hname : isAbsolute name = false) :
    join whole name = within base ++ join dir name := by
  rcases h with rfl | ⟨rfl, rfl⟩
  · by_cases hdir : dir = ""
    · subst hdir
      rw [String.append_empty, join_empty_left]
      exact join_of_endsInSlash hname (endsInSlash_within hne)
    · have hslash := endsInSlash_append (p := within base) hdir
      cases hends : endsInSlash dir with
      | true =>
        rw [hends] at hslash
        rw [join_of_endsInSlash hname hslash, join_of_endsInSlash hname hends, String.append_assoc]
      | false =>
        rw [hends] at hslash
        have hwhole : within base ++ dir ≠ "" := by simp [hdir]
        rw [join_of_plain hname hwhole hslash, join_of_plain hname hdir hends]
        simp only [String.append_assoc]
  · rw [join_empty_left, join_eq_within_append hne hname]

/-- The last component is the same below a directory; what is in front of it may be the directory itself. -/
theorem splitLast_within (hbase : IsBare base) {pattern : List Char}
    (hrel : isAbsolute (String.ofList pattern) = false) :
    splitLast ((within base).toList ++ pattern) =
      (if (splitLast pattern).1.isEmpty then base.toList else (within base).toList ++ (splitLast pattern).1,
        (splitLast pattern).2) := by
  obtain ⟨bare, k, last, rfl, hlast, hbare, hk⟩ := exists_lastComponent pattern
  rw [splitLast_append hlast hbare hk]
  cases bare with
  | nil =>
    obtain rfl : k = 0 := by
      by_contra hne
      obtain ⟨k, rfl⟩ := Nat.exists_eq_succ_of_ne_zero hne
      simp [isAbsolute, List.replicate_succ] at hrel
    rcases within_cases hbase.1 with ⟨hslash, hwithin⟩ | ⟨hslash, hwithin⟩
    · have hbare : base.toList.getLast? ≠ some '/' := by simpa [endsInSlash] using hslash
      have hsplit : splitLast (base.toList ++ List.replicate 1 '/' ++ last) = _ :=
        splitLast_append hlast hbare (.inr Nat.one_pos)
      rw [if_neg (by simpa using hbase.1)] at hsplit
      rw [hwithin, String.toList_append]
      exact hsplit
    · have hslashes : base.toList = List.replicate base.toList.length '/' :=
        List.eq_replicate_of_mem (hbase.2 hslash)
      have hsplit : splitLast ([] ++ List.replicate base.toList.length '/' ++ last) = _ :=
        splitLast_append hlast (by simp) (.inl rfl)
      rw [List.nil_append, ← hslashes] at hsplit
      rw [hwithin]
      exact hsplit
  | cons c rest =>
    have hsplit : splitLast ((within base).toList ++ c :: rest ++ List.replicate k '/' ++ last) = _ :=
      splitLast_append hlast (by rwa [List.getLast?_append_of_ne_nil _ (List.cons_ne_nil c rest)])
        (.inr (hk.resolve_left (List.cons_ne_nil c rest)))
    rw [if_neg (by simp)] at hsplit
    simp only [← List.append_assoc] at hsplit ⊢
    exact hsplit

theorem isAbsolute_join (base : String) (hp : isAbsolute p = false) : isAbsolute (join base p) = isAbsolute base := by
  by_cases hne : base = ""
  · rw [hne, join_empty_left, hp]
    rfl
  · have hhead (q : String) : isAbsolute (base ++ q) = isAbsolute base := by
      obtain ⟨c, cs, hbase⟩ := List.exists_cons_of_ne_nil (show base.toList ≠ [] by simpa using hne)
      simp [isAbsolute, hbase]
    rcases join_cases base hp with ⟨hempty, -⟩ | ⟨front, rfl, hjoin⟩ | ⟨-, -, hjoin⟩
    · exact absurd hempty hne
    · rw [hjoin, hhead]
    · rw [hjoin, String.append_assoc, hhead]

theorem mem_components_join {c : String} (hp : isAbsolute p = false) (hc : c ∈ components (join base p)) :
    c ∈ components base ∨ c ∈ components p := by
  rcases join_cases base hp with ⟨-, hjoin⟩ | ⟨front, rfl, hjoin⟩ | ⟨-, -, hjoin⟩
  · rw [hjoin] at hc
    exact .inr hc
  · rw [hjoin, components_append_slash, List.mem_append] at hc
    rw [← String.append_empty (s := front ++ "/"), components_append_slash, List.mem_append]
    exact hc.imp_left .inl
  · rwa [hjoin, components_append_slash, List.mem_append] at hc

end PathText

open PathText

/-! ### Places below a directory -/

namespace FileTree

variable {t : FileTree} {base : String} {place here cs : List String} {entries : List (String × Node)} {q : String}

/-- Components without `..` lead from a directory where they lead in the tree below it. -/
theorem follow_below {n : Node} (hn : t.at? place = some n) (hcs : ".." ∉ cs) :
    t.follow (place ++ here) cs = (place ++ ·) <$> FileTree.follow n here cs := by
  induction cs generalizing here with
  | nil => rfl
  | cons c cs ih =>
    rw [List.mem_cons, not_or] at hcs
    have hat : t.at? (place ++ here) = n.at? here := by rw [Node.at?_append, hn, Option.bind_some]
    have hdown : (c == "..") = false := by simpa using Ne.symm hcs.1
    simp only [follow, hat, hdown, Bool.false_eq_true, if_false]
    cases n.at? here with
    | none => rfl
    | some m =>
      cases m with
      | file data => rfl
      | directory es =>
        dsimp only
        split
        · exact ih hcs.2
        · split
          · rfl
          · split
            · rw [List.append_assoc]
              exact ih hcs.2
            · rfl

/-- The entries stand in the directory `base`. -/
structure Stands (t : FileTree) (base : String) (place : List String) (entries : List (String × Node)) : Prop where
  leads : t.placeOf base = .ok place
  holds : t.at? place = some (.directory entries)

variable (h : t.Stands base place entries) (hbase : IsBare base)
include h hbase

/-- Paths below a directory lead to places below its place. -/
theorem Stands.follow_within (hq : ".." ∉ components q) :
    t.follow [] (components (within base ++ q)) =
      (place ++ ·) <$> FileTree.follow (.directory entries) [] (components q) := by
  obtain ⟨-, -, hleads⟩ := placeOf_eq_ok_iff.mp h.leads
  have hfront : ∃ front, within base = front ++ "/" ∧ t.follow [] (components front) = .ok place := by
    rcases within_cases hbase.1 with ⟨-, hwithin⟩ | ⟨hslash, hwithin⟩
    · exact ⟨base, hwithin, hleads⟩
    · obtain ⟨front, rfl⟩ := exists_of_endsInSlash hslash
      refine ⟨front, hwithin, ?_⟩
      rw [← String.append_empty (s := front ++ "/"), components_append_slash, follow_append, bind_eq_ok_iff] at hleads
      obtain ⟨here, hhere, hlast⟩ := hleads
      obtain ⟨es, hes⟩ := exists_entries_of_follow hlast
      rw [show components "" = [""] from rfl, follow_slash es hes] at hlast
      rw [hhere, hlast]
  obtain ⟨front, hwithin, hfront⟩ := hfront
  rw [hwithin, components_append_slash, follow_append, hfront]
  have hbelow : t.follow (place ++ []) (components q) = _ := follow_below h.holds hq
  rw [List.append_nil] at hbelow
  exact hbelow

/-- Below a directory, a path leads where it leads in the directory itself. -/
theorem Stands.placeOf_within (hq : ".." ∉ components q)
    (hroom : (within base ++ q).utf8ByteSize ≤ longestPath) :
    t.placeOf (within base ++ q) = (place ++ ·) <$> FileTree.placeOf (.directory entries) q := by
  obtain ⟨hnull, -, -⟩ := placeOf_eq_ok_iff.mp h.leads
  have hnull : ('\x00' ∈ (within base ++ q).toList) ↔ '\x00' ∈ q.toList := by
    rcases within_cases hbase.1 with ⟨-, hwithin⟩ | ⟨-, hwithin⟩ <;> simp [hwithin, hnull]
  have hshort : q.utf8ByteSize ≤ longestPath := by
    rw [String.utf8ByteSize_append] at hroom
    omega
  unfold placeOf componentsOf
  simp only [List.contains_eq_mem, hnull]
  by_cases hq' : '\x00' ∈ q.toList
  · simp only [hq', decide_true, if_true]
    rfl
  · rw [if_neg (by simpa using hq'), if_neg (by omega), if_neg (by simpa using hq'), if_neg (by omega)]
    exact h.follow_within hbase hq

/-- And the same thing is found there. -/
theorem Stands.node_within (hq : ".." ∉ components q) (hroom : (within base ++ q).utf8ByteSize ≤ longestPath) :
    t.node (within base ++ q) = FileTree.node (.directory entries) q := by
  rw [node_eq_bind, node_eq_bind, h.placeOf_within hbase hq hroom]
  cases FileTree.placeOf (.directory entries) q with
  | error e => rfl
  | ok there =>
    have hbelow : t.at? (place ++ there) = (Node.directory entries).at? there := by
      rw [Node.at?_append, h.holds, Option.bind_some]
    simp only [Functor.map, Except.map, bind, Except.bind, hbelow]

/-- Lookups see the same from outside, for paths that are not too long. -/
theorem Stands.node_inside {dir whole : String} (hinside : Inside base dir whole) (hdir : ".." ∉ components dir)
    (hroom : (within base ++ dir).utf8ByteSize ≤ longestPath) :
    t.node whole = FileTree.node (.directory entries) dir := by
  rcases hinside with rfl | ⟨rfl, rfl⟩
  · exact h.node_within hbase hdir hroom
  · have hout : t.node whole = .ok (.directory entries) := node_eq_ok_iff.mpr ⟨place, h.leads, h.holds⟩
    have hin : FileTree.node (.directory entries) "" = .ok (.directory entries) :=
      node_eq_ok_iff.mpr ⟨[], placeOf_eq_ok_iff.mpr ⟨by decide, by decide, follow_slash entries rfl⟩, rfl⟩
    rw [hout, hin]

end FileTree

/-! ### How long paths get -/

/-- How many bytes the names of a place take on a path. -/
def reach : List String → Nat
  | [] => 0
  | name :: place => name.utf8ByteSize + 1 + reach place

@[simp] theorem reach_nil : reach [] = 0 := rfl

@[simp] theorem reach_cons (name : String) (place : List String) :
    reach (name :: place) = name.utf8ByteSize + 1 + reach place := rfl

theorem reach_append (place below : List String) : reach (place ++ below) = reach place + reach below := by
  induction place with
  | nil => exact (Nat.zero_add _).symm
  | cons name place ih =>
    rw [List.cons_append, reach_cons, reach_cons, ih]
    omega

theorem utf8ByteSize_joinWith {names : List String} (hne : names ≠ []) :
    (Text.joinWith "/" names).utf8ByteSize + 1 = reach names := by
  induction names with
  | nil => exact absurd rfl hne
  | cons name names ih =>
    cases names with
    | nil => simp [Text.joinWith]
    | cons next names =>
      have hrest := ih (List.cons_ne_nil next names)
      have hslash : ("/" : String).utf8ByteSize = 1 := rfl
      rw [Text.joinWith_cons_cons, String.utf8ByteSize_append, String.utf8ByteSize_append, hslash, add_assoc, hrest]
      rfl

/-- Joining adds one slash at most. -/
theorem utf8ByteSize_join_le (base : String) {p : String} (hp : isAbsolute p = false) :
    (join base p).utf8ByteSize ≤ base.utf8ByteSize + 1 + p.utf8ByteSize := by
  have hslash : ("/" : String).utf8ByteSize = 1 := rfl
  rcases join_cases base hp with ⟨-, hjoin⟩ | ⟨front, rfl, hjoin⟩ | ⟨-, -, hjoin⟩
  · rw [hjoin]
    omega
  · rw [hjoin, String.utf8ByteSize_append]
    omega
  · rw [hjoin, String.utf8ByteSize_append, String.utf8ByteSize_append]
    omega

namespace Glob

variable {t : FileTree} {directoriesOnly : Bool} {pattern : List Char} {paths part : List String} {path c : String}
  {here place : List String}

/-- What is found for a relative pattern is so too, and longer than the pattern only by names that lead to it. -/
def Bounded (t : FileTree) (pattern : List Char) (path : String) : Prop :=
  isAbsolute path = false ∧ ".." ∉ components path ∧ ∃ place, (t.at? place).isSome = true ∧
    path.utf8ByteSize ≤ (String.ofList pattern).utf8ByteSize + reach place ∧
    ∀ there, t.follow [] (components path) = .ok there → there = place

theorem bounded_self (hrel : isAbsolute (String.ofList pattern) = false)
    (hback : ".." ∉ components (String.ofList pattern)) : Bounded t pattern (String.ofList pattern) := by
  refine ⟨hrel, hback, ?_⟩
  cases hfollow : t.follow [] (components (String.ofList pattern)) with
  | error e => exact ⟨[], rfl, Nat.le_add_right _ _, nofun⟩
  | ok place =>
    refine ⟨place, FileTree.isSome_of_follow (t := t) rfl hfollow, Nat.le_add_right _ _, ?_⟩
    rintro there ⟨⟩
    rfl

theorem back_not_mem_of_standsFor (hc : c ≠ "..") (h : StandsFor c part) : ".." ∉ part := by
  intro hmem
  cases h with
  | literal => exact hc (List.mem_singleton.mp hmem).symm
  | directory => exact absurd hmem (by decide)
  | below _ _ steps => exact (steps _ hmem).down rfl
  | name _ _ step => exact step.down (List.mem_singleton.mp hmem).symm

/-- The part of a path that a component stands for is longer than the component only by names that it leads through. -/
theorem utf8ByteSize_part_le (hc : c ≠ "..") (h : StandsFor c part) (hfollow : t.follow here part = .ok place) :
    reach here + (Text.joinWith "/" part).utf8ByteSize ≤ c.utf8ByteSize + reach place := by
  have hsteps (steps : ∀ name ∈ part, IsEntryName name) (hne : part ≠ []) :
      reach here + (Text.joinWith "/" part).utf8ByteSize ≤ c.utf8ByteSize + reach place := by
    obtain rfl := eq_append_of_follow steps hfollow
    have hpart := utf8ByteSize_joinWith hne
    rw [reach_append]
    omega
  cases h with
  | literal plain =>
    have hplace := FileTree.eq_walk_of_follow hfollow
    have hpart : (Text.joinWith "/" [c]).utf8ByteSize = c.utf8ByteSize := rfl
    have hreach : reach here ≤ reach place := by
      rw [hplace]
      cases hidle : isIdle c with
      | true => simp [hidle, walk]
      | false => simp [hidle, walk, hc, reach_append]
    omega
  | directory recursive =>
    obtain ⟨entries, hentries⟩ := FileTree.exists_entries_of_follow hfollow
    rw [FileTree.follow_slash entries hentries] at hfollow
    cases hfollow
    have hpart : (Text.joinWith "/" [""]).utf8ByteSize = 0 := rfl
    omega
  | below recursive some steps visible => exact hsteps steps some
  | name wild single step visible fits => exact hsteps (by simpa using step) (List.cons_ne_nil _ _)

/-- A way that fits a pattern is longer than the pattern only by names that it leads through. -/
theorem reach_way_le {cs way : List String} (hcs : ".." ∉ cs) (h : Fits cs way)
    (hfollow : t.follow here way = .ok place) :
    reach here + reach way ≤ reach cs + reach place := by
  induction h generalizing here with
  | nil =>
    cases hfollow
    exact (add_comm _ _).le
  | @cons c cs part way stands rest ih =>
    rw [List.mem_cons, not_or] at hcs
    rw [FileTree.follow_append, bind_eq_ok_iff] at hfollow
    obtain ⟨mid, hmid, hplace⟩ := hfollow
    have hpart := utf8ByteSize_part_le (Ne.symm hcs.1) stands hmid
    have hnames := utf8ByteSize_joinWith stands.ne_nil
    have hrest := ih hcs.2 hplace
    rw [reach_append, reach_cons]
    omega

theorem null_not_mem_of_fits {cs way : List String} (hcs : ∀ c ∈ cs, '\x00' ∉ c.toList) (h : Fits cs way) :
    ∀ name ∈ way, '\x00' ∉ name.toList := by
  induction h with
  | nil => exact fun _ hname => nomatch hname
  | cons stands _ ih =>
    rw [List.forall_mem_cons] at hcs
    rw [List.forall_mem_append]
    exact ⟨null_not_mem_of_standsFor hcs.1 stands, ih hcs.2⟩

/-- The slashes in front of the last component of a relative pattern make up for the one that is put in. -/
theorem exists_gap (hrel : isAbsolute (String.ofList pattern) = false) :
    isAbsolute (String.ofList (splitLast pattern).1) = false ∧ ∃ gap,
      (String.ofList (splitLast pattern).1).utf8ByteSize + gap + (String.ofList (splitLast pattern).2).utf8ByteSize ≤
        (String.ofList pattern).utf8ByteSize ∧
      ∀ dir name, ((splitLast pattern).1 = [] → dir = "") → isAbsolute name = false →
        (join dir name).utf8ByteSize ≤ dir.utf8ByteSize + gap + name.utf8ByteSize := by
  obtain ⟨bare, k, last, rfl, hlast, hbare, hk⟩ := exists_lastComponent pattern
  rw [splitLast_append hlast hbare hk]
  cases bare with
  | nil =>
    obtain rfl : k = 0 := by
      by_contra hne
      obtain ⟨k, rfl⟩ := Nat.exists_eq_succ_of_ne_zero hne
      simp [isAbsolute, List.replicate_succ] at hrel
    refine ⟨rfl, 0, by simp, fun dir name hdir _ => ?_⟩
    rw [hdir rfl, join_empty_left]
    omega
  | cons c rest =>
    obtain ⟨k, rfl⟩ := Nat.exists_eq_add_one_of_ne_zero
      (Nat.pos_iff_ne_zero.mp (hk.resolve_left (List.cons_ne_nil c rest)))
    refine ⟨by simpa [isAbsolute] using hrel, 1, ?_, fun dir name _ hname => utf8ByteSize_join_le dir hname⟩
    have hslash : 1 ≤ (String.ofList (List.replicate (k + 1) '/')).utf8ByteSize := by
      have hpos := Char.utf8Size_pos '/'
      rw [String.utf8ByteSize_ofList, List.replicate_succ, String.utf8Len]
      omega
    rw [String.ofList_append, String.ofList_append, String.utf8ByteSize_append, String.utf8ByteSize_append]
    simp only [List.isEmpty_cons, Bool.false_eq_true, if_false]
    omega

theorem back_not_mem_splitLast (hback : ".." ∉ components (String.ofList pattern)) :
    ".." ∉ components (String.ofList (splitLast pattern).1) ∧ String.ofList (splitLast pattern).2 ≠ ".." := by
  obtain ⟨k, -, ⟨hslashes, hcomponents⟩ | hcomponents⟩ := components_splitLast pattern
  · rw [hcomponents] at hback
    rw [hslashes, components_slashes]
    refine ⟨by simp, ?_⟩
    intro hlast
    simp [hlast] at hback
  · rw [hcomponents, List.mem_append, List.mem_append, not_or, not_or] at hback
    refine ⟨hback.1, ?_⟩
    intro hlast
    simp [hlast] at hback

/-- No path that is found is longer than the pattern and the deepest place of the tree allow. -/
theorem bounded_of_mem_expand (ht : t.Proper) (hrel : isAbsolute (String.ofList pattern) = false)
    (hback : ".." ∉ components (String.ofList pattern)) (h : expand t directoriesOnly pattern = .ok paths)
    (hpath : path ∈ paths) : Bounded t pattern path := by
  induction pattern using patternInduction generalizing directoriesOnly paths path with
  | plain pattern hplain =>
    rw [expand_of_plain t directoriesOnly hplain, Except.ok.injEq] at h
    subst h
    split at hpath
    · rw [List.mem_singleton.mp hpath]
      exact bounded_self hrel hback
    · cases hpath
  | wild pattern hwild ih =>
    obtain ⟨dirs, dir, part, hdirs, hdir, hstands, rfl, hleads⟩ := exists_dir_of_mem_expand ht hwild h hpath
    obtain ⟨hrelFront, gap, hgap, hjoin⟩ := exists_gap hrel
    obtain ⟨hbackFront, hbackLast⟩ := back_not_mem_splitLast hback
    have hlast := slash_not_mem_lastComponent pattern
    have hslash := slash_not_mem_of_standsFor hlast hstands
    have hfront : Bounded t (splitLast pattern).1 dir ∧ ((splitLast pattern).1 = [] → dir = "") := by
      unfold directories at hdirs
      split at hdirs
      · next hwildFront =>
        refine ⟨ih hwildFront hrelFront hbackFront hdirs hdir, fun hnil => ?_⟩
        rw [hnil] at hwildFront
        cases hwildFront
      · cases hdirs
        rw [List.mem_singleton.mp hdir]
        exact ⟨bounded_self hrelFront hbackFront, fun hnil => by rw [hnil]⟩
    obtain ⟨⟨hrelDir, hbackDir, here, hhere, hshort, hplace⟩, hempty⟩ := hfront
    have hlong := hjoin dir (Text.joinWith "/" part) hempty (hstands.isAbsolute hlast)
    refine ⟨?_, fun hmem => ?_, ?_⟩
    · rw [isAbsolute_join _ (hstands.isAbsolute hlast), hrelDir]
    · rcases mem_components_join (hstands.isAbsolute hlast) hmem with hmem | hmem
      · exact hbackDir hmem
      · rw [components_joinWith hstands.ne_nil hslash] at hmem
        exact back_not_mem_of_standsFor hbackLast hstands hmem
    · rw [follow_join_part ht hlast hstands]
      rcases hleads with ⟨hrecursive, rfl⟩ | ⟨from', place, hfrom, hpart⟩
      · refine ⟨here, hhere, ?_, fun there hthere => ?_⟩
        · have hpart : (Text.joinWith "/" [""]).utf8ByteSize = 0 := rfl
          omega
        · obtain ⟨from', hfrom, hthere⟩ := bind_eq_ok_iff.mp hthere
          obtain ⟨entries, hentries⟩ := FileTree.exists_entries_of_follow hthere
          rw [FileTree.follow_slash entries hentries] at hthere
          cases hthere
          exact hplace _ hfrom
      · obtain rfl := hplace _ hfrom
        have hlength := utf8ByteSize_part_le hbackLast hstands hpart
        refine ⟨place, FileTree.isSome_of_follow hhere hpart, by omega, fun there hthere => ?_⟩
        rw [hfrom] at hthere
        change t.follow from' part = .ok there at hthere
        rw [hpart] at hthere
        cases hthere
        rfl

/-! ### Searches below a directory -/

variable {base dir whole : String} {entries : List (String × Node)} (h : t.Stands base place entries)
  (hbase : IsBare base)
include h hbase

theorem found_within {q : String} (hq : ".." ∉ components q)
    (hroom : (within base ++ q).utf8ByteSize ≤ FileTree.longestPath) :
    found t (within base ++ q) = found (.directory entries) q := by
  rw [Bool.eq_iff_iff, found_iff, found_iff, h.placeOf_within hbase hq hroom]
  simp [map_eq_ok_iff]

/-- One component is searched for inside a directory as in the directory itself. -/
theorem candidates_inside (directoriesOnly : Bool) (hinside : Inside base dir whole) (hdir : ".." ∉ components dir)
    (hc : '/' ∉ c.toList) (hback : c ≠ "..")
    (hroomDir : (within base ++ dir).utf8ByteSize ≤ FileTree.longestPath)
    (hroom : hasWildcard c.toList = false → (within base ++ join dir c).utf8ByteSize ≤ FileTree.longestPath) :
    candidates t directoriesOnly whole c = candidates (.directory entries) directoriesOnly dir c := by
  have hnode := h.node_inside hbase hinside hdir hroomDir
  have hentries : t.entries whole = FileTree.entries (.directory entries) dir := by
    rw [FileTree.entries, FileTree.entries, hnode]
  unfold candidates
  split
  · next hplain =>
    have habsolute := isAbsolute_eq_false hc
    have hjoin : ".." ∉ components (join dir c) := by
      intro hmem
      rcases mem_components_join habsolute hmem with hmem | hmem
      · exact hdir hmem
      · rw [components_eq_singleton hc] at hmem
        exact hback (List.mem_singleton.mp hmem).symm
    have hexists : t.exists? (join whole c) = FileTree.exists? (.directory entries) (join dir c) := by
      rw [FileTree.exists?, FileTree.exists?, hinside.join_eq hbase.1 habsolute,
        h.node_within hbase hjoin (hroom (by simpa using hplain))]
    have hdirectory : FileTree.isDirectory t whole = FileTree.isDirectory (.directory entries) dir := by
      rw [FileTree.isDirectory, FileTree.isDirectory, hnode]
    rw [literal, literal, hexists, hdirectory]
  · split
    · rw [anyDepth, anyDepth, hentries]
    · rw [fitting, fitting, hentries]

/-- A search below a directory finds the same wherever the directory stands, if its path has no wildcards and leaves
room for the paths below. -/
theorem expand_within (hproper : FileTree.Proper (.directory entries)) (hplain : hasWildcard base.toList = false)
    (hrel : isAbsolute (String.ofList pattern) = false) (hback : ".." ∉ components (String.ofList pattern))
    (hroom : ∀ there, ((Node.directory entries).at? there).isSome = true →
      (within base).utf8ByteSize + (String.ofList pattern).utf8ByteSize + reach there ≤ FileTree.longestPath) :
    expand t directoriesOnly ((within base).toList ++ pattern) =
      List.map (within base ++ ·) <$> expand (.directory entries) directoriesOnly pattern := by
  have hwithin : hasWildcard (within base).toList = false := by
    rcases within_cases hbase.1 with ⟨-, hwithin⟩ | ⟨-, hwithin⟩
    · rw [hwithin]
      simpa [hasWildcard] using hplain
    · rw [hwithin, hplain]
  have hwhole (p : List Char) : hasWildcard ((within base).toList ++ p) = hasWildcard p := by
    rw [hasWildcard, List.any_append]
    exact Bool.or_eq_right_iff_imp.mpr fun hw => absurd hw (by simpa [hasWildcard] using hwithin)
  have htext (p : List Char) : String.ofList ((within base).toList ++ p) = within base ++ String.ofList p := by
    rw [← String.toList_inj]
    simp
  -- a path that is found leaves room below the base
  have hshort {p : List Char} {dir : String} (hdir : Bounded (.directory entries) p dir)
      (hp : (String.ofList p).utf8ByteSize ≤ (String.ofList pattern).utf8ByteSize) :
      (within base ++ dir).utf8ByteSize ≤ FileTree.longestPath := by
    obtain ⟨-, -, there, hthere, hdir, -⟩ := hdir
    have := hroom there hthere
    rw [String.utf8ByteSize_append]
    omega
  induction pattern using patternInduction generalizing directoriesOnly with
  | plain pattern hpattern =>
    have hfound := found_within h hbase hback (hshort (bounded_self hrel hback) le_rfl)
    rw [expand_of_plain t directoriesOnly ((hwhole pattern).trans hpattern),
      expand_of_plain _ directoriesOnly hpattern, htext, hfound]
    split <;> rfl
  | wild pattern hpattern ih =>
    obtain ⟨hrelFront, gap, hgap, hjoin⟩ := exists_gap hrel
    obtain ⟨hbackFront, hbackLast⟩ := back_not_mem_splitLast hback
    have hlast := slash_not_mem_lastComponent pattern
    have hroomFront (there : List String) (hthere : ((Node.directory entries).at? there).isSome = true) :
        (within base).utf8ByteSize + (String.ofList (splitLast pattern).1).utf8ByteSize + reach there ≤
          FileTree.longestPath := by
      have := hroom there hthere
      omega
    -- the directories that are searched are those below, seen from outside
    have hdirs : ∃ g : String → String, (∀ dir, ((splitLast pattern).1 = [] → dir = "") → Inside base dir (g dir)) ∧
        directories t (splitLast ((within base).toList ++ pattern)).1 =
          List.map g <$> directories (.directory entries) (splitLast pattern).1 := by
      rw [splitLast_within hbase hrel]
      dsimp only
      split
      · next hempty =>
        rw [List.isEmpty_iff] at hempty
        refine ⟨fun _ => base, fun dir hdir => .inr ⟨hdir hempty, rfl⟩, ?_⟩
        rw [hempty, directories, if_neg (by simpa using hplain), String.ofList_toList]
        rfl
      · refine ⟨(within base ++ ·), fun dir _ => .inl rfl, ?_⟩
        rw [directories, directories, hwhole]
        split
        · next hwildFront =>
          exact ih hwildFront hrelFront hbackFront hroomFront
            fun hdir hp => hshort hdir (hp.trans (by omega))
        · rw [htext]
          rfl
    obtain ⟨g, hg, hdirs⟩ := hdirs
    rw [expand_of_wild t directoriesOnly ((hwhole pattern).trans hpattern), expand_of_wild _ directoriesOnly hpattern,
      hdirs]
    cases hinside : directories (.directory entries) (splitLast pattern).1 with
    | error e => rfl
    | ok dirs =>
      have hdir : ∀ dir ∈ dirs, Bounded (.directory entries) (splitLast pattern).1 dir ∧
          ((splitLast pattern).1 = [] → dir = "") := by
        intro dir hmem
        unfold directories at hinside
        split at hinside
        · next hwildFront =>
          refine ⟨bounded_of_mem_expand hproper hrelFront hbackFront hinside hmem, fun hnil => ?_⟩
          rw [hnil] at hwildFront
          cases hwildFront
        · cases hinside
          rw [List.mem_singleton.mp hmem]
          exact ⟨bounded_self hrelFront hbackFront, fun hnil => by rw [hnil]⟩
      have hstep : ∀ dir ∈ dirs,
          List.map (join (g dir)) <$> candidates t directoriesOnly (g dir) (String.ofList (splitLast pattern).2) =
            List.map (within base ++ ·) <$> List.map (join dir) <$>
              candidates (.directory entries) directoriesOnly dir (String.ofList (splitLast pattern).2) := by
        intro dir hmem
        obtain ⟨hbounded, hempty⟩ := hdir dir hmem
        have hsame := candidates_inside h hbase directoriesOnly (hg dir hempty) hbounded.2.1 hlast hbackLast
          (hshort hbounded (by omega)) fun _ => by
            obtain ⟨-, -, there, hthere, hlong, -⟩ := hbounded
            have := hroom there hthere
            have := hjoin dir (String.ofList (splitLast pattern).2) hempty (isAbsolute_eq_false hlast)
            rw [String.utf8ByteSize_append]
            omega
        rw [hsame]
        cases hnames : candidates (.directory entries) directoriesOnly dir (String.ofList (splitLast pattern).2) with
        | error e => rfl
        | ok names =>
          refine congrArg Except.ok ?_
          rw [List.map_map]
          refine List.map_congr_left fun name hname => ?_
          obtain ⟨part, hstands, rfl, -⟩ := exists_part_of_mem_candidates hproper hlast hnames hname
          exact (hg dir hempty).join_eq hbase.1 (hstands.isAbsolute hlast)
      have hrows : List.flatten <$> (dirs.map g).mapM (fun whole =>
            List.map (join whole) <$> candidates t directoriesOnly whole (String.ofList (splitLast pattern).2)) =
          List.map (within base ++ ·) <$> List.flatten <$> dirs.mapM fun dir =>
            List.map (join dir) <$> candidates (.directory entries) directoriesOnly dir
              (String.ofList (splitLast pattern).2) := by
        rw [List.mapM_map, mapM_eq_map (f := _ ∘ g) hstep]
        cases dirs.mapM fun dir => List.map (join dir) <$>
          candidates (.directory entries) directoriesOnly dir (String.ofList (splitLast pattern).2) with
        | error e => rfl
        | ok found => exact congrArg Except.ok List.map_flatten.symm
      rw [splitLast_within hbase hrel]
      exact hrows

end Glob

end GraphDecl
