import GraphDecl.Proofs.Document.Segments
import GraphDecl.Proofs.Document.Spelling

/-!
Texts that hold operations only. Each operation is the text from its first token to its last one, and what
stands between these texts has no tokens. Such texts can be taken apart and put together.
-/

open GraphDecl.Lexer GraphDecl.Parser

namespace GraphDecl

structure OperationText (w : List Char) (ls : List Lexeme) (d : OperationDefinition) : Prop where
  spells : Spells w ls
  start : ls.head?.map (·.start) = some 0
  stop : ls.getLast?.map (·.stop) = some w.length
  reads : ReadsOperation (ls.map (·.token)) d

/-- The text holds the operations and nothing else. -/
inductive Holds : List Char → List (String × OperationDefinition) → Prop
  | blank {z : List Char} (hz : Blank z) : Holds z []
  | operation {gap w rest : List Char} {ls : List Lexeme} {d : OperationDefinition}
    {ops : List (String × OperationDefinition)} (hgap : Spells gap []) (hw : OperationText w ls d)
    (hrest : Holds rest ops) : Holds (gap ++ (w ++ rest)) ((String.ofList w, d) :: ops)

theorem OperationText.ne_nil {w : List Char} {ls : List Lexeme} {d : OperationDefinition}
    (h : OperationText w ls d) : w ≠ [] := by
  rintro rfl
  cases ls with
  | nil => cases h.reads.closed
  | cons l ls =>
    have hnil := h.spells 0 []
    simp [lexemesFrom_nil] at hnil

/-- An operation holds itself. -/
theorem OperationText.holds {w : List Char} {ls : List Lexeme} {d : OperationDefinition}
    (h : OperationText w ls d) : Holds w [(String.ofList w, d)] := by
  simpa using Holds.operation spells_nil h (.blank blank_nil)

/-- The operations of a text stand on their own. -/
theorem Holds.of_mem {z : List Char} {ops : List (String × OperationDefinition)} (h : Holds z ops)
    {op : String × OperationDefinition} (hop : op ∈ ops) : Holds op.1.toList [op] := by
  induction h with
  | blank hz => cases hop
  | operation hgap hw hrest ih =>
    rcases List.mem_cons.mp hop with rfl | hop
    · simpa using hw.holds
    · exact ih hop

theorem Holds.append_gap {gap z : List Char} {ops : List (String × OperationDefinition)}
    (hgap : Spells gap []) (h : Holds z ops) : Holds (gap ++ z) ops := by
  cases h with
  | blank hz => exact .blank (hz.append_gap hgap)
  | operation hgap' hw hrest =>
    rw [← List.append_assoc]
    exact .operation (hgap.append hgap') hw hrest

/-- Two texts, with the second one on a new line. -/
theorem Holds.append_newline {y z : List Char} {ops ops' : List (String × OperationDefinition)}
    (h : Holds y ops) (h' : Holds z ops') : Holds (y ++ '\n' :: z) (ops ++ ops') := by
  induction h with
  | blank hz => simpa using h'.append_gap hz.spells_newline
  | operation hgap hw hrest ih => simpa using Holds.operation hgap hw ih

/-! ### Places -/

/-- A part of a text is where what stands before it ends. -/
theorem slice_eq {text : String} {pre w post : List Char} (htext : text.toList = pre ++ (w ++ post)) :
    slice text pre.length (pre.length + w.length) = String.ofList w := by
  rw [slice, htext]
  simp

/-- The part of the text between two tokens, given by the numbers of tokens left before and after it. -/
def cutOut (text : String) (counts : Nat × Nat) : String :=
  let places := (lexemes text).toArray
  slice text ((places[places.size - counts.1]?.map (·.start)).getD 0)
    ((places[places.size - counts.2 - 1]?.map (·.stop)).getD 0)

/-- Tokens are found by how many of them are left. -/
theorem cutOut_eq {text : String} {before ls rest : List Lexeme} {pre w post : List Char}
    (htext : text.toList = pre ++ (w ++ post)) (hlexemes : lexemes text = before ++ (ls ++ rest))
    (hstart : ls.head?.map (·.start) = some pre.length)
    (hstop : ls.getLast?.map (·.stop) = some (pre.length + w.length)) :
    cutOut text (ls.length + rest.length, rest.length) = String.ofList w := by
  rw [← List.length_append]
  obtain ⟨first, hfirst, hstart⟩ := Option.map_eq_some_iff.mp hstart
  obtain ⟨last, hlast, hstop⟩ := Option.map_eq_some_iff.mp hstop
  have hfirst : (lexemes text)[(lexemes text).length - (ls ++ rest).length]? = some first := by
    rw [hlexemes, List.length_append, Nat.add_sub_cancel, List.getElem?_append_right (Nat.le_refl _),
      Nat.sub_self, ← List.head?_eq_getElem?, List.head?_append, hfirst]
    rfl
  have hlast : (lexemes text)[(lexemes text).length - rest.length - 1]? = some last := by
    have hne : 0 < (before ++ ls).length := by
      cases ls with
      | nil => cases hlast
      | cons l ls => simp only [List.length_append, List.length_cons]; omega
    rw [hlexemes, ← List.append_assoc, List.length_append, Nat.add_sub_cancel,
      List.getElem?_append_left (by omega), ← List.getLast?_eq_getElem?, List.getLast?_append, hlast]
    rfl
  rw [cutOut]
  simp only [List.getElem?_toArray, List.size_toArray, hfirst, hlast, Option.map_some, Option.getD_some,
    hstart, hstop]
  exact slice_eq htext

/-- The text of an operation is what the places of its tokens cut out of a document around it. -/
theorem OperationText.cutOut {text : String} {before ls rest : List Lexeme} {pre w post : List Char}
    {d : OperationDefinition} (h : OperationText w ls d) (htext : text.toList = pre ++ (w ++ post))
    (hlexemes : lexemes text = before ++ (ls.map (Lexeme.shift pre.length) ++ rest)) :
    cutOut text (ls.length + rest.length, rest.length) = String.ofList w := by
  rw [← List.length_map (Lexeme.shift pre.length)]
  obtain ⟨first, hfirst, hstart⟩ := Option.map_eq_some_iff.mp h.start
  obtain ⟨last, hlast, hstop⟩ := Option.map_eq_some_iff.mp h.stop
  apply cutOut_eq htext hlexemes
  · simp [hfirst, Lexeme.shift, hstart]
  · simp [hlast, Lexeme.shift, hstop]

/-! ### Taking texts apart -/

/-- The tokens of an operation at the front of a text are those of its own text. -/
theorem exists_operationText {offset : Nat} {z : List Char} {ls rest : List Lexeme}
    {d : OperationDefinition} (h : lexemesFrom offset z = ls ++ rest)
    (hd : ReadsOperation (ls.map (·.token)) d) :
    ∃ gap w z' spelled, z = gap ++ (w ++ z') ∧ Spells gap [] ∧ OperationText w spelled d ∧
      ls = spelled.map (Lexeme.shift (offset + gap.length)) ∧
      lexemesFrom (offset + gap.length + w.length) z' = rest := by
  cases ls with
  | nil => cases hd.closed
  | cons l ls =>
    have hend : l.token.isEnd = false := hd.isEnd_headD []
    obtain ⟨heof, -⟩ | ⟨e, he, -⟩ | ⟨gap, c, r, t, n, rfl, hgap, hc, hread, hl, -⟩ :=
      lexemesFrom_eq_cons h
    · rw [heof] at hend
      cases hend
    · rw [he] at hend
      cases hend
    · rw [hgap, List.map_nil, List.nil_append] at h
      have hclosed := hd.closed
      rw [List.getLast?_map] at hclosed
      obtain ⟨w, z', spelled, hz, -, hspells, hls, hstop, hrest⟩ := exists_spelled h hclosed
      refine ⟨gap, w, z', spelled, by rw [hz], hgap, ⟨hspells, ?_, hstop, ?_⟩, hls, hrest⟩
      · cases spelled with
        | nil => cases hls
        | cons first spelled =>
          have hstart : l.start = offset + gap.length + first.start :=
            congrArg Lexeme.start (List.cons.inj hls).1
          have hzero : first.start = 0 := by
            rw [hl] at hstart
            simpa using hstart
          rw [List.head?_cons, Option.map_some, hzero]
      · rwa [hls, Lexeme.map_token_shift] at hd

/-- A text whose tokens fall into operations holds the texts of these operations. -/
theorem holds_of_segments {ts : List Token} {os : List (OperationDefinition × Nat × Nat)}
    (h : Segments ts os) {text : String} {pre z : List Char} {before : List Lexeme}
    (htext : text.toList = pre ++ z) (hlexemes : lexemes text = before ++ lexemesFrom pre.length z)
    (hts : (lexemesFrom pre.length z).map (·.token) = ts) :
    Holds z (os.map fun o => (cutOut text o.2, o.1)) := by
  induction h generalizing pre z before with
  | @last segment rest d hd hne hend =>
    obtain ⟨ls, lsrest, hls, rfl, rfl⟩ := List.map_eq_append_iff.mp hts
    obtain ⟨gap, w, z', spelled, rfl, hgap, hw, rfl, hrest⟩ := exists_operationText hls hd
    have hblank : Blank z' := by
      cases lsrest with
      | nil => exact absurd rfl hne
      | cons l lsrest => exact (blank_of_lexemesFrom hrest hend).1
    rw [← List.length_append] at hls
    have hcut := hw.cutOut (by rw [htext, List.append_assoc]) (hlexemes.trans (congrArg _ hls))
    simp only [List.map_singleton, List.length_append, List.length_map, hcut]
    exact .operation hgap hw (.blank hblank)
  | @next segment rest d ds hd hrests ih =>
    obtain ⟨ls, lsrest, hls, rfl, rfl⟩ := List.map_eq_append_iff.mp hts
    obtain ⟨gap, w, z', spelled, rfl, hgap, hw, rfl, hrest⟩ := exists_operationText hls hd
    rw [← List.length_append] at hls hrest
    have hcut := hw.cutOut (by rw [htext, List.append_assoc]) (hlexemes.trans (congrArg _ hls))
    rw [← List.length_append] at hrest
    have htext' : text.toList = pre ++ gap ++ w ++ z' := by simp [htext]
    have hlexemes' : lexemes text = before ++ spelled.map (Lexeme.shift (pre ++ gap).length) ++
        lexemesFrom (pre ++ gap ++ w).length z' := by
      rw [hlexemes, hls, hrest, ← List.append_assoc]
    have hrest' := ih htext' hlexemes' (by rw [hrest])
    simp only [List.map_cons, List.length_append, List.length_map, hcut]
    exact .operation hgap hw hrest'

/-- The operations of a text that holds operations only, each with its own text. -/
theorem segments_of_holds {z : List Char} {ops : List (String × OperationDefinition)} (h : Holds z ops)
    (hne : ops ≠ []) {text : String} {pre : List Char} {before : List Lexeme}
    (htext : text.toList = pre ++ z) (hlexemes : lexemes text = before ++ lexemesFrom pre.length z) :
    ∃ os, Segments ((lexemesFrom pre.length z).map (·.token)) os ∧
      ops = os.map fun o => (cutOut text o.2, o.1) := by
  induction h generalizing pre before with
  | blank hz => exact absurd rfl hne
  | @operation gap w rest ls d ops hgap hw hrest ih =>
    have hls : lexemesFrom pre.length (gap ++ (w ++ rest)) =
        ls.map (Lexeme.shift (pre ++ gap).length) ++ lexemesFrom (pre ++ gap ++ w).length rest := by
      rw [hgap, hw.spells]
      simp [Nat.add_assoc]
    have hcut := hw.cutOut (by rw [htext, List.append_assoc]) (hlexemes.trans (congrArg _ hls))
    have htokens : (lexemesFrom pre.length (gap ++ (w ++ rest))).map (·.token) =
        ls.map (·.token) ++ (lexemesFrom (pre ++ gap ++ w).length rest).map (·.token) := by
      rw [hls, List.map_append, Lexeme.map_token_shift]
    have htext' : text.toList = pre ++ gap ++ w ++ rest := by simp [htext]
    have hlexemes' : lexemes text = before ++ ls.map (Lexeme.shift (pre ++ gap).length) ++
        lexemesFrom (pre ++ gap ++ w).length rest := by
      rw [hlexemes, hls, ← List.append_assoc]
    rw [htokens]
    cases hrest with
    | blank hz =>
      refine ⟨_, .last hw.reads (by rw [hz]; exact nofun) (by rw [hz]; rfl), ?_⟩
      simp only [List.map_singleton, List.length_append, List.length_map] at hcut ⊢
      rw [hcut]
    | operation hgap' hw' hrest' =>
      obtain ⟨os, hos, hops⟩ := ih nofun htext' hlexemes'
      refine ⟨_, .next hw.reads hos, ?_⟩
      simp only [List.map_cons, List.length_append, List.length_map] at hcut ⊢
      rw [hcut, hops]

/-! ### Documents -/

/-- A definition that takes up the part of the text between two tokens. -/
def passageOf (text : String) (d : Definition × Nat × Nat) : Passage :=
  let places := (lexemes text).toArray
  { definition := d.1
    start := (places[places.size - d.2.1]?.map (·.start)).getD 0
    stop := (places[places.size - d.2.2 - 1]?.map (·.stop)).getD 0 }

/-- The passages of a document are its definitions with the places of their tokens. -/
theorem parseDocument_eq_ok_iff {text : String} {passages : List Passage} :
    parseDocument text = .ok passages ↔
      ∃ ds rest, document (.ofList (tokens text)) = .ok (ds, rest) ∧ ds.map (passageOf text) = passages := by
  unfold parseDocument
  split
  · next hread => simp [hread]
  · next ds rest hread =>
    constructor
    · intro h
      cases h
      exact ⟨ds, rest, hread, rfl⟩
    · rintro ⟨ds', rest', hread', rfl⟩
      cases hread.symm.trans hread'
      rfl

/-- A document of operations holds them, each with the text that it takes up. -/
theorem holds_of_parseDocument {text : String} {passages : List Passage}
    (h : parseDocument text = .ok passages)
    (hops : ∀ p ∈ passages, ∃ d, p.definition = .operation d) :
    ∃ ops, ops ≠ [] ∧ Holds text.toList ops ∧
      passages.map (fun p => (slice text p.start p.stop, p.definition)) =
        ops.map fun op => (op.1, .operation op.2) := by
  obtain ⟨ds, rest, hread, rfl⟩ := parseDocument_eq_ok_iff.mp h
  have hends : Ended (tokens text) := ended_lexemesFrom 0 text.toList
  have hds : ∀ x ∈ ds, ∃ d, x.1 = .operation d :=
    fun x hx => hops (passageOf text x) (List.mem_map_of_mem hx)
  obtain ⟨os, hsegments, rfl⟩ := segments_of_document hends hds hread
  have hholds := holds_of_segments hsegments (List.nil_append text.toList).symm
    (List.nil_append (lexemes text)).symm rfl
  refine ⟨_, ?_, hholds, ?_⟩
  · simpa using hsegments.ne_nil
  · rw [List.map_map, List.map_map, List.map_map]
    rfl

/-- A text that holds operations is a document with these operations, but for their places. -/
theorem parseDocument_of_holds {text : String} {ops : List (String × OperationDefinition)}
    (h : Holds text.toList ops) (hne : ops ≠ []) :
    ∃ passages, parseDocument text = .ok passages ∧
      passages.map (fun p => (slice text p.start p.stop, p.definition.unplaced)) =
        ops.map fun op => (op.1, .operation op.2.unplaced) := by
  obtain ⟨os, hsegments, rfl⟩ := segments_of_holds h hne (List.nil_append text.toList).symm
    (List.nil_append (lexemes text)).symm
  obtain ⟨ds, rest, hread, hsame⟩ := Segments.document hsegments
  refine ⟨_, parseDocument_eq_ok_iff.mpr ⟨ds, rest, hread, rfl⟩, ?_⟩
  have hcuts := congrArg (List.map fun x : Definition × Nat × Nat => (cutOut text x.2, x.1)) hsame
  rw [List.map_map, List.map_map] at hcuts
  rw [List.map_map, List.map_map]
  exact hcuts

theorem blank_of_isBlankDocument {text : String} (h : isBlankDocument text = .ok true) :
    Blank text.toList := by
  cases hlexemes : lexemes text with
  | nil => exact absurd (congrArg (List.map Lexeme.token) hlexemes) (ended_lexemesFrom 0 _).ne_nil
  | cons l ls =>
    refine (blank_of_lexemesFrom hlexemes ?_).1
    unfold isBlankDocument at h
    rw [hlexemes] at h
    obtain ⟨t, start, stop⟩ := l
    cases t with
    | eof => rfl
    | _ => cases h

/-- A text that holds operations is blank only if there are none of them. -/
theorem isBlankDocument_of_holds {text : String} {ops : List (String × OperationDefinition)}
    (h : Holds text.toList ops) : isBlankDocument text = .ok ops.isEmpty := by
  unfold isBlankDocument
  cases ops with
  | nil =>
    have hblank : Blank text.toList := by
      generalize text.toList = z at h
      cases h with
      | blank hz => exact hz
    rw [lexemes, hblank]
    rfl
  | cons op ops =>
    obtain ⟨os, hsegments, -⟩ := segments_of_holds h nofun (List.nil_append text.toList).symm
      (List.nil_append (lexemes text)).symm
    have hend : ((tokens text).headD .eof).isEnd = false := hsegments.isEnd_headD
    cases hlexemes : lexemes text with
    | nil =>
      rw [tokens, hlexemes] at hend
      cases hend
    | cons l ls =>
      rw [tokens, hlexemes] at hend
      obtain ⟨t, start, stop⟩ := l
      cases t with
      | eof => cases hend
      | invalid e => cases hend
      | _ => rfl

end GraphDecl
