import GraphDecl.Proofs.Signatures

/-!
What a document that compiles can hold. All of its definitions are operations with names, each with a record of
its own. A fragment can only be where no selection is looked at: below a field `__typename`.
-/

namespace GraphDecl

namespace Selection

mutual

/-- The fragments that are selected, at any depth: for each of them the names of the fields around it, from the
outside in. -/
def fragments : Selection → List (List String)
  | .field _ name _ _ below => (fragmentsBelow below).map (name :: ·)
  | .spread .. => [[]]
  | .inline _ _ selections => [] :: fragmentsAmong selections

def fragmentsBelow : Option (List Selection) → List (List String)
  | none => []
  | some selections => fragmentsAmong selections

def fragmentsAmong : List Selection → List (List String)
  | [] => []
  | x :: xs => x.fragments ++ fragmentsAmong xs

end

end Selection

variable {s : Schema} {text signature : String}

/-- Every selection set is looked at on the way down, but for those below `__typename`. -/
theorem typename_mem_of_mem_fragments {root path : String} {xs : List Selection} {fields : List ResultField}
    (h : projectFields s root path xs = .ok fields) :
    ∀ names ∈ Selection.fragmentsAmong xs, typenameField ∈ names := by
  induction xs using Selection.listInduction generalizing path fields with
  | nil => exact fun names hnames => nomatch hnames
  | field label name args dirs below xs ihbelow ihxs =>
    rw [Schema.projectFields_cons] at h
    obtain ⟨f, hf, h⟩ := bind_eq_ok_iff.mp h
    obtain ⟨rest, hrest, -⟩ := map_eq_ok_iff.mp h
    intro names hnames
    rcases List.mem_append.mp hnames with hnames | hnames
    · obtain ⟨inner, hinner, rfl⟩ := List.mem_map.mp hnames
      by_cases htypename : name = typenameField
      · exact htypename ▸ List.mem_cons_self
      · cases below with
        | none => cases hinner
        | some selections =>
          rw [Schema.projectField_of_ne htypename] at hf
          split at hf
          · cases hf
          · obtain ⟨_, -, hf⟩ := bind_eq_ok_iff.mp hf
            obtain ⟨inside, hinside, -⟩ := bind_eq_ok_iff.mp hf
            exact List.mem_cons_of_mem _ (ihbelow selections rfl hinside inner hinner)
    · exact ihxs hrest names hnames
  | spread fragment dirs xs _ =>
    obtain ⟨f, hf, -⟩ := bind_eq_ok_iff.mp ((Schema.projectFields_cons _ _).symm.trans h)
    cases hf
  | inline condition dirs selections xs _ _ =>
    obtain ⟨f, hf, -⟩ := bind_eq_ok_iff.mp ((Schema.projectFields_cons _ _).symm.trans h)
    cases hf

/-- What compiles is an operation with a name, and its record has this name, its kind and its text. -/
theorem exists_named_of_compileDefinition {d : Definition} {op : Operation}
    (h : compileDefinition s signature d = .ok op) :
    ∃ o name, d = .operation o ∧ o.name = some name ∧ compileNamed s name signature o = .ok op ∧
      op.name = operationTypeName name o.kind.text ∧ op.kind = o.kind ∧ op.signature = signature := by
  obtain ⟨o, name, hd, hname, ho⟩ := compileDefinition_eq_ok h
  refine ⟨o, name, hd, hname, ho, ?_⟩
  obtain ⟨root, -, ho⟩ := bind_eq_ok_iff.mp ho
  obtain ⟨names, -, ho⟩ := bind_eq_ok_iff.mp ho
  obtain ⟨fields, -, ho⟩ := bind_eq_ok_iff.mp ho
  cases ho
  exact ⟨rfl, rfl, rfl⟩

/-- All definitions of a document that compiles are operations with names, and the records are theirs, one for
each of them and in their order. Every fragment in the document lies below a field `__typename`. -/
theorem supported_of_compileOperations {ops : List Operation} (h : compileOperations s text = .ok ops) :
    ∃ passages, parseDocument text = .ok passages ∧
      List.Forall₂ (fun p op => ∃ d name, p.definition = .operation d ∧ d.name = some name ∧
        op.name = operationTypeName name d.kind.text ∧ op.kind = d.kind ∧
        op.signature = slice text p.start p.stop ∧
        ∀ names ∈ Selection.fragmentsAmong d.selections, typenameField ∈ names) passages ops := by
  unfold compileOperations at h
  split at h
  · cases h
  · next passages hparse =>
    refine ⟨passages, hparse, (compilePassages_eq_ok_iff.mp (mapError_eq_ok_iff.mp h)).imp ?_⟩
    intro p op hop
    obtain ⟨d, name, hd, hname, hcompile, hopname, hkind, hsignature⟩ :=
      exists_named_of_compileDefinition hop
    refine ⟨d, name, hd, hname, hopname, hkind, hsignature, ?_⟩
    obtain ⟨root, fields, -, hproject, -⟩ := compileNamed_eq_ok hcompile
    obtain ⟨_, -, hfields⟩ := bind_eq_ok_iff.mp hproject
    exact typename_mem_of_mem_fragments hfields

/-- Two operations, the first of which selects a fragment below `__typename`. -/
theorem supported_on_blog :
    let text := "query A \x7b post \x7b t: __typename \x7b ... on Post \x7b title \x7d \x7d tags \x7d \x7d query B \x7b post \x7b title \x7d \x7d"
    ∃ ops passages, compileOperations Schema.blog text = .ok ops ∧ parseDocument text = .ok passages ∧
      (operationsOf text).map (fun d => Selection.fragmentsAmong d.selections) = [[["post", "__typename"]], []] ∧
      ops.map (·.name) = ["AQuery", "BQuery"] ∧
      List.Forall₂ (fun p op => ∃ d name, p.definition = .operation d ∧ d.name = some name ∧
        op.name = operationTypeName name d.kind.text ∧ op.signature = slice text p.start p.stop ∧
        ∀ names ∈ Selection.fragmentsAmong d.selections, typenameField ∈ names) passages ops := by
  intro text
  have hok : (compileOperations Schema.blog text).toOption.map (·.map (·.name)) =
      some ["AQuery", "BQuery"] := by
    decide +kernel
  have hfragments : (operationsOf text).map (fun d => Selection.fragmentsAmong d.selections) =
      [[["post", "__typename"]], []] := by
    decide +kernel
  obtain ⟨ops, hops, hnames⟩ := Option.map_eq_some_iff.mp hok
  rw [toOption_eq_some_iff] at hops
  obtain ⟨passages, hparse, hpassages⟩ := supported_of_compileOperations hops
  refine ⟨ops, passages, hops, hparse, hfragments, hnames, hpassages.imp ?_⟩
  rintro p op ⟨d, name, hd, hname, hopname, -, hsignature, htypename⟩
  exact ⟨d, name, hd, hname, hopname, hsignature, htypename⟩

/-- A fragment that is spread below `__typename` goes by without a fault. -/
theorem fragment_below_typename_compiles :
    let sdl := "type Query \x7b a: Int \x7d"
    let text := "query Q \x7b __typename \x7b ...F \x7d \x7d"
    ∃ s op d, buildSchema sdl = .ok s ∧ compileOperations s text = .ok [op] ∧ operationsOf text = [d] ∧
      Selection.fragmentsAmong d.selections = [["__typename"]] := by
  intro sdl text
  have hrun : ((buildSchema sdl).toOption.bind fun s => (compileOperations s text).toOption.map
      (·.map (·.name))) = some ["QQuery"] := by
    decide +kernel
  have hfragments : (operationsOf text).map (fun d => Selection.fragmentsAmong d.selections) =
      [[["__typename"]]] := by
    decide +kernel
  obtain ⟨s, op, hs, hops, -⟩ := exists_schema_operation_of_map hrun
  obtain ⟨d, hd, hnames⟩ := List.map_eq_singleton_iff.mp hfragments
  exact ⟨s, op, d, hs, hops, hd, hnames⟩

end GraphDecl
