import GraphDecl.Document.Parser
import GraphDecl.Proofs.Document.Reading

/-!
The names in what is read from a document are names: those of types, fields, arguments, variables and
selections, at any depth.
-/

namespace GraphDecl

namespace Parser

/-! ### Operations -/

theorem gives_fragmentName : fragmentName.Gives fun n => isName n = true :=
  gives_peek.bind fun _ _ => gives_ite (gives_unexpected _) gives_expectName

section

variable {selections : Parser (List Selection)}
  (hselections : selections.Gives Selection.AllNamed)
include hselections

theorem gives_field (depth : Nat) : (field depth selections).Gives Selection.Named := by
  apply gives_expectName.bind
  intro first hfirst
  apply (gives_skip .colon).bind
  intro labelled _
  have hlabel : ∀ l, (if labelled then some first else none) = some l → isName l = true := by
    intro l hl
    split at hl
    · exact Option.some.inj hl ▸ hfirst
    · cases hl
  have hrest (name : String) (hname : isName name = true) : Gives (do
      let args ← arguments depth false
      let dirs ← directives depth false
      let below ← if ← nextIs .braceL then some <$> selections else pure none
      return Selection.field (if labelled then some first else none) name args dirs below)
      Selection.Named := by
    apply (gives_arguments depth false).bind
    intro args _
    apply (gives_directives depth false).bind
    intro dirs _
    apply (gives_nextIs .braceL).bind
    intro _ _
    apply gives_ite
    · apply (hselections.map (R := fun below => ∃ xs, below = some xs ∧ Selection.AllNamed xs)
        fun xs hxs => ⟨xs, rfl, hxs⟩).bind
      rintro _ ⟨xs, rfl, hxs⟩
      exact gives_pure ⟨hlabel, hname, hxs⟩
    · exact gives_pure ⟨hlabel, hname, trivial⟩
  exact gives_ite (gives_expectName.bind hrest) (hrest first hfirst)

theorem gives_spread (depth : Nat) : (spread depth selections).Gives Selection.Named := by
  apply (gives_expect .spread).bind
  intro _ _
  apply (gives_skipKeyword "on").bind
  intro _ _
  apply gives_ite
  · apply gives_expectName.bind
    intro condition hcondition
    apply (gives_directives depth false).bind
    intro dirs _
    apply hselections.bind
    intro xs hxs
    exact gives_pure ⟨fun c hc => Option.some.inj hc ▸ hcondition, hxs⟩
  · apply gives_peek.bind
    intro t _
    split
    · apply gives_fragmentName.bind
      intro n hn
      exact (gives_directives depth false).bind fun _ _ => gives_pure hn
    · apply (gives_directives depth false).bind
      intro dirs _
      apply hselections.bind
      intro xs hxs
      exact gives_pure ⟨by simp, hxs⟩

end

/-- All names of a selection that has been read are names, at every depth. -/
theorem gives_selectionSet : selectionSet.Gives Selection.AllNamed := by
  apply gives_limited
  intro depth self hself
  refine Gives.weaken (gives_manyBetween (Q := Selection.Named) ?_ .braceL .braceR)
    fun xs hxs => Selection.allNamed_iff.mpr hxs
  apply (gives_nextIs .spread).bind
  intro _ _
  exact gives_ite (gives_spread hself depth) (gives_field hself depth)

theorem gives_variableDefinition :
    variableDefinition.Gives fun v => isName v.name = true ∧ isName v.type.name = true := by
  apply gives_description.bind
  intro about _
  apply gives_variableName.bind
  intro n hn
  apply (gives_expect .colon).bind
  intro _ _
  apply gives_typeRef.bind
  intro t ht
  apply gives_defaultValue.bind
  intro d _
  exact (gives_directives maxDepth true).bind fun _ _ => gives_pure ⟨hn, ht⟩

/-- An operation that has been read has names where names have to stand. -/
theorem gives_operationDefinition : operationDefinition.Gives OperationDefinition.Named := by
  apply (gives_nextIs .braceL).bind
  intro _ _
  apply gives_ite
  · apply gives_selectionSet.bind
    intro xs hxs
    exact gives_pure ⟨by simp, by simp, hxs⟩
  · apply gives_description.bind
    intro about _
    apply gives_operationKind.bind
    intro kind _
    apply gives_peek.bind
    intro t _
    have hrest (name : Option String) (hname : ∀ n, name = some n → isName n = true) : Gives (do
        let vars ← optionalBetween .parenL .parenR variableDefinition
        let dirs ← directives maxDepth false
        return OperationDefinition.mk about kind name vars dirs (← selectionSet))
        OperationDefinition.Named := by
      apply (gives_optionalBetween gives_variableDefinition .parenL .parenR).bind
      intro vars hvars
      apply (gives_directives maxDepth false).bind
      intro dirs _
      apply gives_selectionSet.bind
      intro xs hxs
      exact gives_pure ⟨hname, hvars, hxs⟩
    split
    · exact (gives_expectName.map fun n hn m hm => Option.some.inj hm ▸ hn).bind hrest
    · exact hrest none (by simp)

theorem gives_fragmentDefinition : fragmentDefinition.Gives fun _ => True := by
  apply gives_description.bind
  intro about _
  apply (gives_expectKeyword "fragment").bind
  intro _ _
  apply gives_fragmentName.bind
  intro n _
  apply (gives_expectKeyword "on").bind
  intro _ _
  apply gives_expectName.bind
  intro condition _
  apply (gives_directives maxDepth false).bind
  intro dirs _
  exact gives_selectionSet.bind fun _ _ => gives_pure trivial

/-! ### Types -/

theorem gives_inputValueDefinition : inputValueDefinition.Gives InputValueDefinition.Named := by
  apply gives_description.bind
  intro about _
  apply gives_expectName.bind
  intro n hn
  apply (gives_expect .colon).bind
  intro _ _
  apply gives_typeRef.bind
  intro t ht
  apply gives_defaultValue.bind
  intro d _
  exact (gives_directives maxDepth true).bind fun _ _ => gives_pure ⟨hn, ht⟩

theorem gives_argumentDefinitions :
    argumentDefinitions.Gives fun args => ∀ a ∈ args, a.Named :=
  gives_optionalBetween gives_inputValueDefinition .parenL .parenR

theorem gives_fieldDefinition : fieldDefinition.Gives FieldDefinition.Named := by
  apply gives_description.bind
  intro about _
  apply gives_expectName.bind
  intro n hn
  apply gives_argumentDefinitions.bind
  intro args hargs
  apply (gives_expect .colon).bind
  intro _ _
  apply gives_typeRef.bind
  intro t ht
  exact (gives_directives maxDepth true).bind fun _ _ => gives_pure ⟨hn, hargs, ht⟩

theorem gives_fieldDefinitions : fieldDefinitions.Gives fun fields => ∀ f ∈ fields, f.Named :=
  gives_optionalBetween gives_fieldDefinition .braceL .braceR

theorem gives_enumValueDefinition : enumValueDefinition.Gives fun v => isName v.name = true := by
  apply gives_description.bind
  intro about _
  apply gives_peek.bind
  intro t _
  apply gives_ite (gives_fail _ _)
  apply gives_expectName.bind
  intro n hn
  exact (gives_directives maxDepth true).bind fun _ _ => gives_pure hn

theorem gives_interfaceNames : interfaceNames.Gives fun names => ∀ n ∈ names, isName n = true :=
  (gives_skipKeyword "implements").bind fun _ _ =>
    gives_ite (gives_separatedBy gives_expectName .amp) (gives_pure (by simp))

theorem gives_unionMembers : unionMembers.Gives fun names => ∀ n ∈ names, isName n = true :=
  (gives_skip .equals).bind fun _ _ =>
    gives_ite (gives_separatedBy gives_expectName .pipe) (gives_pure (by simp))

/-- What has been read of a type refers to other types by names. -/
theorem gives_typeParts (kind : TypeKind) :
    (typeParts kind).Gives fun parts => isName parts.1 = true ∧ parts.2.2.Named := by
  apply (gives_expectKeyword (typeKeyword kind)).bind
  intro _ _
  apply gives_expectName.bind
  intro n hn
  have hdirectives := gives_directives maxDepth true
  cases kind with
  | scalar => exact hdirectives.bind fun _ _ => gives_pure ⟨hn, trivial⟩
  | object =>
    apply gives_interfaceNames.bind
    intro interfaces hinterfaces
    apply hdirectives.bind
    intro dirs _
    exact gives_fieldDefinitions.bind fun _ hfields => gives_pure ⟨hn, hinterfaces, hfields⟩
  | interface =>
    apply gives_interfaceNames.bind
    intro interfaces hinterfaces
    apply hdirectives.bind
    intro dirs _
    exact gives_fieldDefinitions.bind fun _ hfields => gives_pure ⟨hn, hinterfaces, hfields⟩
  | union =>
    apply hdirectives.bind
    intro dirs _
    exact gives_unionMembers.bind fun _ hmembers => gives_pure ⟨hn, hmembers⟩
  | enum =>
    apply hdirectives.bind
    intro dirs _
    apply (gives_optionalBetween gives_enumValueDefinition .braceL .braceR).bind
    exact fun _ hvalues => gives_pure ⟨hn, hvalues⟩
  | inputObject =>
    apply hdirectives.bind
    intro dirs _
    apply (gives_optionalBetween gives_inputValueDefinition .braceL .braceR).bind
    exact fun _ hfields => gives_pure ⟨hn, hfields⟩

theorem gives_typeDefinition (kind : TypeKind) :
    (typeDefinition kind).Gives fun d => isName d.name = true ∧ d.body.Named := by
  apply gives_description.bind
  intro about _
  apply (gives_typeParts kind).bind
  intro ⟨n, dirs, body⟩ hparts
  exact gives_pure hparts

theorem gives_typeExtension (kind : TypeKind) :
    (typeExtension kind).Gives fun d => isName d.name = true ∧ d.body.Named := by
  apply (gives_expectKeyword "extend").bind
  intro _ _
  apply (gives_typeParts kind).bind
  intro ⟨n, dirs, body⟩ hparts
  exact gives_ite (gives_unexpected _) (gives_pure hparts)

theorem gives_rootDefinition : rootDefinition.Gives fun _ => True := by
  apply gives_operationKind.bind
  intro k _
  apply (gives_expect .colon).bind
  intro _ _
  exact gives_expectName.bind fun _ _ => gives_pure trivial

theorem gives_schemaDefinition : schemaDefinition.Gives fun _ => True := by
  apply gives_description.bind
  intro about _
  apply (gives_expectKeyword "schema").bind
  intro _ _
  apply (gives_directives maxDepth true).bind
  intro dirs _
  exact (gives_manyBetween gives_rootDefinition .braceL .braceR).bind fun _ _ => gives_pure trivial

theorem gives_schemaExtension : schemaExtension.Gives fun _ => True := by
  apply (gives_expectKeyword "extend").bind
  intro _ _
  apply (gives_expectKeyword "schema").bind
  intro _ _
  apply (gives_directives maxDepth true).bind
  intro dirs _
  apply (gives_optionalBetween gives_rootDefinition .braceL .braceR).bind
  intro roots _
  exact gives_ite (gives_unexpected _) (gives_pure trivial)

theorem gives_directiveLocation : directiveLocation.Gives fun _ => True := by
  apply gives_remaining.bind
  intro place _
  apply gives_expectName.bind
  intro n _
  split
  · exact gives_pure trivial
  · exact gives_failAt _ _ _

theorem gives_directiveDefinition : directiveDefinition.Gives fun _ => True := by
  apply gives_description.bind
  intro about _
  apply (gives_expectKeyword "directive").bind
  intro _ _
  apply (gives_expect .atSign).bind
  intro _ _
  apply gives_expectName.bind
  intro n _
  apply gives_argumentDefinitions.bind
  intro args _
  apply (gives_skipKeyword "repeatable").bind
  intro repeatable _
  apply (gives_expectKeyword "on").bind
  intro _ _
  exact (gives_separatedBy gives_directiveLocation .pipe).bind fun _ _ => gives_pure trivial

/-! ### Documents -/

theorem gives_extension : extension.Gives Definition.Named := by
  apply gives_remaining.bind
  intro place _
  apply gives_peekSecond.bind
  intro t _
  split
  · exact gives_schemaExtension.map fun _ _ => trivial
  · split
    · next k _ => exact (gives_typeExtension k).map fun _ hd => hd
    · exact gives_failAt _ _ _
  · exact gives_failAt _ _ _

theorem gives_definitionOf {word : String} {p : Parser Definition} (h : definitionOf? word = some p) :
    p.Gives Definition.Named := by
  unfold definitionOf? at h
  split at h
  · cases h
    exact gives_schemaDefinition.map fun _ _ => trivial
  · cases h
    exact gives_directiveDefinition.map fun _ _ => trivial
  · cases h
    exact gives_fragmentDefinition.map fun _ _ => trivial
  · split at h
    · cases h
      exact gives_operationDefinition.map fun _ hd => hd
    · obtain ⟨k, -, rfl⟩ := Option.map_eq_some_iff.mp h
      exact (gives_typeDefinition k).map fun _ hd => hd

/-- Every definition that has been read has names where names have to stand. -/
theorem gives_definition : definition.Gives Definition.Named := by
  apply gives_remaining.bind
  intro place _
  apply gives_peek.bind
  intro t _
  split
  · exact gives_operationDefinition.map fun _ hd => hd
  case h_4 =>
    split
    · next hp => exact gives_definitionOf hp
    · exact gives_ite gives_extension (gives_unexpected _)
  case h_5 => exact gives_unexpected _
  -- what follows a description
  all_goals
    apply gives_peekSecond.bind
    intro u _
    split
    · exact gives_fail _ _
    · split
      · next hp => exact gives_definitionOf hp
      · exact gives_fail _ _
    · exact gives_failAt _ _ _

theorem gives_document : document.Gives fun ds => ∀ d ∈ ds, d.1.Named := by
  apply gives_checkNext.bind
  intro _ _
  apply gives_nested
  intro self hself
  refine Gives.bind (Q := fun d : Definition × Nat × Nat => d.1.Named) ?_ ?_
  · apply gives_remaining.bind
    intro before _
    apply gives_definition.bind
    intro d hd
    exact gives_remaining.bind fun _ _ => gives_pure hd
  · intro d hd
    apply gives_peek.bind
    intro t _
    apply gives_ite
    · exact gives_pure (by simpa using hd)
    · exact hself.bind fun ds hds => gives_pure (List.forall_mem_cons.mpr ⟨hd, hds⟩)

end Parser

/-- The definitions that a document is read to are made from names. -/
theorem named_of_parseDocument {text : String} {passages : List Passage}
    (h : parseDocument text = .ok passages) : ∀ p ∈ passages, p.definition.Named := by
  unfold parseDocument at h
  split at h
  · cases h
  · next ds rest hread =>
    cases h
    obtain ⟨hds, -⟩ := Parser.gives_document _ _ _ (namedTokens_tokens text) hread
    intro p hp
    obtain ⟨d, hd, rfl⟩ := List.mem_map.mp hp
    exact hds d hd

end GraphDecl
