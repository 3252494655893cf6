import GraphDecl.Document.Parser
import GraphDecl.Proofs.Document.Rereading

/-!
Documents that hold operations only, as tokens. They fall into segments, one for each operation, and the
tokens of a segment are read to the same operation in every such document.
-/

namespace GraphDecl

namespace Parser

variable {α β : Type} {p : Parser α}

/-! ### Definitions -/

/-- The first tokens are those with which an operation definition starts. -/
def StartsOperation : List Token → Prop
  | .punctuator .braceL :: _ => True
  | .name n :: _ => (OperationKind.ofText? n).isSome = true
  | .string _ :: .name n :: _ => (OperationKind.ofText? n).isSome = true
  | .blockString _ :: .name n :: _ => (OperationKind.ofText? n).isSome = true
  | _ => False

/-- The definition with the keyword `word`, or what `other` gives if there is none. -/
def definitionOr (word : String) (other : Parser Definition) : Parser Definition :=
  match definitionOf? word with
  | some p => p
  | none => other

def describedDefinition (place : Nat) (t : Token) : Parser Definition :=
  match t with
  | .punctuator .braceL => fail .shorthandDescription
  | .name n => definitionOr n (fail .uselessDescription)
  | t => failAt (place - 1) (.unexpected t)

def definitionFrom (place : Nat) (t : Token) : Parser Definition :=
  match t with
  | .punctuator .braceL => .operation <$> operationDefinition
  | .string _ | .blockString _ => peekSecond >>= describedDefinition place
  | .name n => definitionOr n (if n == "extend" then extension else unexpected)
  | _ => unexpected

theorem definition_eq (ts : Remaining) :
    definition ts = definitionFrom ts.count (ts.tokens.headD .eof) ts := rfl

theorem definitionOr_kind {word : String} (h : (OperationKind.ofText? word).isSome = true)
    (other : Parser Definition) : definitionOr word other = .operation <$> operationDefinition := by
  have hkind : definitionOf? word = some (.operation <$> operationDefinition) := by
    unfold definitionOf?
    split
    · exact absurd h (by decide)
    · exact absurd h (by decide)
    · exact absurd h (by decide)
    · rw [if_pos h]
  rw [definitionOr, hkind]

/-- At a word for a kind of operation or a brace, an operation is read. -/
theorem definition_of_startsOperation {ts : Remaining} (h : StartsOperation ts.tokens) :
    definition ts = (Definition.operation <$> operationDefinition) ts := by
  rw [ts.eq_ofList]
  unfold StartsOperation at h
  split at h
  · next htokens =>
    rw [htokens]
    rfl
  · next n r htokens =>
    rw [htokens]
    show definitionOr n _ _ = _
    rw [definitionOr_kind h]
  · next s n r htokens =>
    rw [htokens]
    show definitionOr n _ _ = _
    rw [definitionOr_kind h]
  · next s n r htokens =>
    rw [htokens]
    show definitionOr n _ _ = _
    rw [definitionOr_kind h]
  · cases h

def GivesOthers (p : Parser Definition) : Prop := ∀ ts d rest, p ts ≠ .ok (.operation d, rest)

theorem givesOthers_map {f : α → Definition}
    (h : ∀ x d, f x ≠ .operation d) : GivesOthers (f <$> p) := by
  intro ts d rest hd
  obtain ⟨x, -, hx⟩ := map_eq_ok.mp hd
  exact h x d hx

theorem givesOthers_bind {f : α → Parser Definition} (h : ∀ x, GivesOthers (f x)) :
    GivesOthers (p >>= f) := by
  intro ts d rest hd
  obtain ⟨x, us, -, hx⟩ := bind_eq_ok.mp hd
  exact h x us d rest hx

theorem givesOthers_of_error {p : Parser Definition} (h : ∀ ts, ∃ e, p ts = .error e) : GivesOthers p := by
  intro ts d rest hd
  obtain ⟨e, he⟩ := h ts
  rw [he] at hd
  cases hd

/-- Nothing that is extended is an operation. -/
theorem givesOthers_extension : GivesOthers extension := by
  refine givesOthers_bind fun place => givesOthers_bind fun t => ?_
  split
  · exact givesOthers_map nofun
  · split
    · exact givesOthers_map nofun
    · exact givesOthers_of_error fun ts => ⟨_, rfl⟩
  · exact givesOthers_of_error fun ts => ⟨_, rfl⟩

/-- Only the keywords of operations lead to operations. -/
theorem isSome_of_definitionOr {word : String} {other : Parser Definition} {ts rest : Remaining}
    {d : OperationDefinition} (hother : GivesOthers other)
    (h : definitionOr word other ts = .ok (.operation d, rest)) :
    (OperationKind.ofText? word).isSome = true := by
  by_contra hkind
  suffices hothers : GivesOthers (definitionOr word other) from hothers ts d rest h
  unfold definitionOr
  split
  · next p hp =>
    unfold definitionOf? at hp
    split at hp
    · cases hp
      exact givesOthers_map nofun
    · cases hp
      exact givesOthers_map nofun
    · cases hp
      exact givesOthers_map nofun
    · rw [if_neg hkind] at hp
      obtain ⟨kind, -, rfl⟩ := Option.map_eq_some_iff.mp hp
      exact givesOthers_map nofun
  · exact hother

theorem exists_name_of_described {t : Token} {ts rest : Remaining} {d : OperationDefinition}
    (h : (peekSecond >>= describedDefinition ts.count) ts = .ok (.operation d, rest))
    (ht : ts.tokens.headD .eof = t) :
    ∃ n r, ts.tokens = t :: .name n :: r ∧ (OperationKind.ofText? n).isSome = true := by
  obtain ⟨u, us, hu, h⟩ := bind_eq_ok.mp h
  unfold describedDefinition at h
  split at h
  · cases h
  · next n =>
    have hn := isSome_of_definitionOr (givesOthers_of_error fun ts => ⟨_, rfl⟩) h
    unfold peekSecond at hu
    split at hu
    · cases hu
    · next t' u' r _ hts =>
      cases hu
      rw [hts, List.headD_cons] at ht
      rw [hts, ht]
      exact ⟨n, r, rfl, hn⟩
    · cases hu
  · cases h

/-- An operation starts with a word for its kind, with a brace, or with a description before such
a word. -/
theorem startsOperation_of_definition {ts rest : Remaining} {d : OperationDefinition}
    (h : definition ts = .ok (.operation d, rest)) : StartsOperation ts.tokens := by
  have hcons {t : Token} (ht : ts.tokens.headD .eof = t) (hne : t ≠ .eof) : ∃ r, ts.tokens = t :: r := by
    subst ht
    cases hts : ts.tokens with
    | nil =>
      rw [hts] at hne
      exact absurd rfl hne
    | cons u r => exact ⟨r, rfl⟩
  rw [definition_eq] at h
  generalize ht : ts.tokens.headD .eof = t at h
  unfold definitionFrom at h
  split at h
  · obtain ⟨r, hr⟩ := hcons ht nofun
    rw [hr]
    trivial
  · obtain ⟨n, r, hr, hn⟩ := exists_name_of_described h ht
    rw [hr]
    exact hn
  · obtain ⟨n, r, hr, hn⟩ := exists_name_of_described h ht
    rw [hr]
    exact hn
  · obtain ⟨r, hr⟩ := hcons ht nofun
    rw [hr]
    refine isSome_of_definitionOr ?_ h
    split
    · exact givesOthers_extension
    · exact givesOthers_of_error fun ts => ⟨_, rfl⟩
  · cases h

/-- The tokens are read to an operation whatever valid token follows, and to the same one but for places. -/
structure ReadsOperation (segment : List Token) (d : OperationDefinition) : Prop where
  closed : segment.getLast? = some (.punctuator .braceR)
  reads : ∀ tail, tail ≠ [] → (tail.headD .eof).isValid = true →
    ∃ d', definition (.ofList (segment ++ tail)) = .ok (.operation d', .ofList tail) ∧
      d'.unplaced = d.unplaced

theorem StartsOperation.of_append {taken rest tail : List Token} (h : StartsOperation (taken ++ rest))
    (htaken : 2 ≤ taken.length) : StartsOperation (taken ++ tail) := by
  match taken, htaken with
  | t :: u :: taken, _ =>
    unfold StartsOperation at h
    split at h
    · next ht => cases ht; trivial
    · next ht => cases ht; exact h
    · next ht => cases ht; exact h
    · next ht => cases ht; exact h
    · cases h

/-- The tokens of an operation that has been read are an operation by themselves. -/
theorem readsOperation_of_definition {ts rest : Remaining} {d : OperationDefinition}
    (hts : Ended ts.tokens) (h : definition ts = .ok (.operation d, rest)) :
    ∃ segment, ts.tokens = segment ++ rest.tokens ∧ rest.tokens ≠ [] ∧ ReadsOperation segment d := by
  have hstarts := startsOperation_of_definition h
  rw [definition_of_startsOperation hstarts] at h
  obtain ⟨d, hd, h⟩ := map_eq_ok.mp h
  cases h
  obtain ⟨segment, hsegment, hrest, htwo, hends, -⟩ :=
    alike_operationDefinition 0 _ ts d rest hts rfl hd
  refine ⟨segment, hsegment, hrest, hends _ rfl, ?_⟩
  intro tail hne hvalid
  -- now with a bound that lets all of the segment through
  obtain ⟨segment', hsegment', -, -, -, htail⟩ :=
    alike_operationDefinition (segment.length + 1) _ ts d rest hts rfl hd
  obtain rfl : segment' = segment := List.append_cancel_right (hsegment'.symm.trans hsegment)
  obtain ⟨d', hd', hsame⟩ := htail (Nat.lt_succ_self _) tail hne (.inr ⟨rfl, hvalid⟩)
  refine ⟨d', ?_, hsame⟩
  rw [hsegment] at hstarts
  rw [definition_of_startsOperation (hstarts.of_append htwo)]
  exact map_eq_ok.mpr ⟨d', hd', rfl⟩

/-- No definition starts at the end of a document. -/
theorem ReadsOperation.isEnd_headD {segment : List Token} {d : OperationDefinition}
    (h : ReadsOperation segment d) (rest : List Token) : ((segment ++ rest).headD .eof).isEnd = false := by
  obtain ⟨d', hd', -⟩ := h.reads [.eof] nofun rfl
  have hstarts := startsOperation_of_definition hd'
  cases hsegment : segment with
  | nil =>
    have hclosed := h.closed
    rw [hsegment] at hclosed
    cases hclosed
  | cons t segment =>
    rw [hsegment] at hstarts
    cases t with
    | eof => cases hstarts
    | invalid e => cases hstarts
    | _ => rfl

/-! ### Documents -/

/-- The tokens are segments of operations up to the end of the document. With each operation stand the
numbers of tokens left before and after it. -/
inductive Segments : List Token → List (OperationDefinition × Nat × Nat) → Prop
  | last {segment rest : List Token} {d : OperationDefinition} (hd : ReadsOperation segment d)
    (hne : rest ≠ []) (hend : rest.headD .eof = .eof) :
    Segments (segment ++ rest) [(d, (segment ++ rest).length, rest.length)]
  | next {segment rest : List Token} {d : OperationDefinition}
    {ds : List (OperationDefinition × Nat × Nat)} (hd : ReadsOperation segment d)
    (hrest : Segments rest ds) :
    Segments (segment ++ rest) ((d, (segment ++ rest).length, rest.length) :: ds)

theorem Segments.isEnd_headD {ts : List Token} {ds : List (OperationDefinition × Nat × Nat)}
    (h : Segments ts ds) : (ts.headD .eof).isEnd = false := by
  cases h with
  | last hd _ _ => exact hd.isEnd_headD _
  | next hd _ => exact hd.isEnd_headD _

theorem Segments.ne_nil {ts : List Token} {ds : List (OperationDefinition × Nat × Nat)}
    (h : Segments ts ds) : ds ≠ [] := by
  cases h <;> exact nofun

def definitionsStep (self : Parser (List (Definition × Nat × Nat))) :
    Parser (List (Definition × Nat × Nat)) := do
  let d ← countedDefinition
  if (← peek) == .eof then return [d] else return d :: (← self)

theorem countedDefinition_eq_ok {ts rest : Remaining} {x : Definition × Nat × Nat} :
    countedDefinition ts = .ok (x, rest) ↔
      definition ts = .ok (x.1, rest) ∧ x.2 = (ts.count, rest.count) := by
  constructor
  · intro h
    obtain ⟨before, us, hbefore, h⟩ := bind_eq_ok.mp h
    cases hbefore
    obtain ⟨d, us, hd, h⟩ := bind_eq_ok.mp h
    obtain ⟨after, vs, hafter, h⟩ := bind_eq_ok.mp h
    cases hafter
    cases h
    exact ⟨hd, rfl⟩
  · obtain ⟨d, counts⟩ := x
    rintro ⟨hd, rfl⟩
    exact bind_eq_ok.mpr ⟨_, _, rfl, bind_eq_ok.mpr ⟨_, _, hd, rfl⟩⟩

theorem definitionsStep_eq_ok {self : Parser (List (Definition × Nat × Nat))} {ts rest : Remaining}
    {ds : List (Definition × Nat × Nat)} (h : definitionsStep self ts = .ok (ds, rest)) :
    ∃ d us ds', definition ts = .ok (d, us) ∧ ds = (d, ts.count, us.count) :: ds' ∧
      (us.tokens.headD .eof = .eof ∧ ds' = [] ∨
        us.tokens.headD .eof ≠ .eof ∧ self us = .ok (ds', rest)) := by
  obtain ⟨x, us, hx, h⟩ := bind_eq_ok.mp h
  obtain ⟨d, counts⟩ := x
  obtain ⟨hd, rfl⟩ := countedDefinition_eq_ok.mp hx
  obtain ⟨t, vs, ht, h⟩ := bind_eq_ok.mp h
  cases ht
  by_cases hend : us.tokens.headD .eof = .eof
  · rw [hend] at h
    cases h
    exact ⟨d, _, [], hd, rfl, .inl ⟨hend, rfl⟩⟩
  · rw [if_neg (by simpa using hend)] at h
    obtain ⟨ds', vs, hds', h⟩ := bind_eq_ok.mp h
    cases h
    exact ⟨d, us, ds', hd, rfl, .inr ⟨hend, hds'⟩⟩

/-- The tokens of a document that holds operations alone fall into operations. -/
theorem segments_of_unroll {depth : Nat} {ts rest : Remaining} {ds : List (Definition × Nat × Nat)}
    (hts : Ended ts.tokens) (hops : ∀ x ∈ ds, ∃ d, x.1 = .operation d)
    (h : unroll unexpected definitionsStep depth ts = .ok (ds, rest)) :
    ∃ os, Segments ts.tokens os ∧ ds = os.map fun o => (.operation o.1, o.2) := by
  induction depth generalizing ts ds with
  | zero => cases h
  | succ depth ih =>
    obtain ⟨d, us, ds', hd, rfl, hrest⟩ := definitionsStep_eq_ok h
    obtain ⟨⟨o, rfl⟩, hops'⟩ := List.forall_mem_cons.mp hops
    obtain ⟨segment, hsegment, hne, hread⟩ := readsOperation_of_definition hts hd
    rw [ts.count_eq, us.count_eq, hsegment]
    obtain ⟨hend, rfl⟩ | ⟨-, hself⟩ := hrest
    · exact ⟨_, .last hread hne hend, rfl⟩
    · rw [hsegment] at hts
      obtain ⟨os, hos, rfl⟩ := ih (hts.of_append hne) hops' hself
      exact ⟨_, .next hread hos, rfl⟩

/-- A document is what the loop reads from its first token on. -/
theorem unroll_of_document {ts rest : Remaining} {ds : List (Definition × Nat × Nat)}
    (h : document ts = .ok (ds, rest)) :
    unroll unexpected definitionsStep (ts.count + 1) ts = .ok (ds, rest) := by
  obtain ⟨_, us, hcheck, hread⟩ := bind_eq_ok.mp h
  unfold checkNext at hcheck
  split at hcheck <;> cases hcheck
  exact hread

/-- The definitions of a document that holds operations only. -/
theorem segments_of_document {ts rest : Remaining} {ds : List (Definition × Nat × Nat)}
    (hts : Ended ts.tokens) (hops : ∀ x ∈ ds, ∃ d, x.1 = .operation d)
    (h : document ts = .ok (ds, rest)) :
    ∃ os, Segments ts.tokens os ∧ ds = os.map fun o => (.operation o.1, o.2) :=
  segments_of_unroll hts hops (unroll_of_document h)

theorem isValid_of_isEnd {t : Token} (h : t.isEnd = false) : t.isValid = true := by
  cases t with
  | invalid e => cases h
  | _ => rfl

theorem countedDefinition_segment {segment rest : List Token} {d : OperationDefinition}
    (hd : ReadsOperation segment d) (hne : rest ≠ []) (hvalid : (rest.headD .eof).isValid = true) :
    ∃ x, countedDefinition (.ofList (segment ++ rest)) = .ok (x, .ofList rest) ∧
      x.1.unplaced = .operation d.unplaced ∧ x.2 = ((segment ++ rest).length, rest.length) := by
  obtain ⟨d', hd', hsame⟩ := hd.reads rest hne hvalid
  exact ⟨(.operation d', _, _), countedDefinition_eq_ok.mpr ⟨hd', rfl⟩, congrArg _ hsame, rfl⟩

/-- And tokens that fall into operations are read as these. -/
theorem Segments.unroll {ts : List Token} {os : List (OperationDefinition × Nat × Nat)}
    (h : Segments ts os) {depth : Nat} (hdepth : ts.length ≤ depth) :
    ∃ ds rest, unroll unexpected definitionsStep depth (.ofList ts) = .ok (ds, rest) ∧
      ds.map (fun x => (x.1.unplaced, x.2)) = os.map fun o => (.operation o.1.unplaced, o.2) := by
  induction h generalizing depth with
  | @last segment rest d hd hne hend =>
    cases depth with
    | zero => simp_all
    | succ depth =>
      obtain ⟨x, hx, hsame, hcounts⟩ := countedDefinition_segment hd hne (by rw [hend]; rfl)
      refine ⟨[x], .ofList rest, ?_, by rw [List.map_singleton, List.map_singleton, hsame, hcounts]⟩
      refine bind_eq_ok.mpr ⟨x, _, hx, bind_eq_ok.mpr ⟨.eof, .ofList rest, ?_, rfl⟩⟩
      rw [← hend]
      rfl
  | @next segment rest d ds hd hrest ih =>
    have hend := hrest.isEnd_headD
    have hne : rest ≠ [] := by
      rintro rfl
      cases hend
    have hsegment : segment ≠ [] := by
      rintro rfl
      cases hd.closed
    cases depth with
    | zero => simp_all
    | succ depth =>
      obtain ⟨x, hx, hsame, hcounts⟩ := countedDefinition_segment hd hne (isValid_of_isEnd hend)
      have hless : rest.length ≤ depth := by
        have hpos := List.length_pos_of_ne_nil hsegment
        rw [List.length_append] at hdepth
        omega
      obtain ⟨xs, us, hxs, hsames⟩ := ih hless
      refine ⟨x :: xs, us, ?_, by rw [List.map_cons, List.map_cons, hsame, hcounts, hsames]⟩
      refine bind_eq_ok.mpr ⟨x, _, hx, bind_eq_ok.mpr ⟨_, _, rfl, ?_⟩⟩
      have hgoes : ¬ (rest.headD .eof == .eof) = true := by
        intro h
        rw [beq_iff_eq.mp h] at hend
        cases hend
      show (if rest.headD .eof == .eof then _ else _ : Parser _) _ = _
      rw [if_neg hgoes]
      exact bind_eq_ok.mpr ⟨xs, us, hxs, rfl⟩

/-- Segments of operations are a document with these operations, but for their places. -/
theorem Segments.document {ts : List Token} {os : List (OperationDefinition × Nat × Nat)}
    (h : Segments ts os) :
    ∃ ds rest, document (.ofList ts) = .ok (ds, rest) ∧
      ds.map (fun x => (x.1.unplaced, x.2)) = os.map fun o => (.operation o.1.unplaced, o.2) := by
  obtain ⟨ds, rest, hds, hsame⟩ := h.unroll (Nat.le_succ ts.length)
  refine ⟨ds, rest, bind_eq_ok.mpr ⟨(), _, checkNext_eq_ok ?_, hds⟩, hsame⟩
  exact isValid_of_isEnd h.isEnd_headD

end Parser

end GraphDecl
