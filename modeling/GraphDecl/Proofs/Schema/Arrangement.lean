import GraphDecl.Proofs.Document.Positions
import GraphDecl.Proofs.Schema.DistinctNames
import GraphDecl.Proofs.Schema.ResolutionOrder

/-!
How declarations are arranged. A schema has one declaration for each type that its text defines under a name of
its own, in the order of the text or by kind, and rearranging the definitions rearranges the declarations.
-/

namespace GraphDecl

/-! ### Definitions and their declarations -/

/-- The definition of a type, if its name is not that of a built-in type. -/
def Definition.ownType? (d : Definition) : Option TypeDefinition :=
  d.type?.filter (!Builtin.reserved.contains ·.name)

/-- The type definitions of a document that count, with the places where they start. -/
def typePassages (passages : List Passage) : List (Nat × TypeDefinition) :=
  passages.filterMap fun p => p.definition.ownType?.map (p.start, ·)

/-- The kinds of types in the order of their declarations. -/
def kindOrder : List TypeKind := [.scalar, .enum, .interface, .inputObject, .union, .object]

def TypeKind.rank (k : TypeKind) : Nat := kindOrder.idxOf k

/-- Whether the declaration of one definition comes before that of another one. -/
def DisplayOrder.Precedes : DisplayOrder → Nat × TypeDefinition → Nat × TypeDefinition → Prop
  | asIs, (place, _), (place', _) => place < place'
  | byKind, (place, d), (place', d') =>
    d.body.kind.rank < d'.body.kind.rank ∨ d.body.kind = d'.body.kind ∧ place < place'

/-- Whether a declaration is what types of a kind are declared as. -/
def Declaration.IsOf : Declaration → TypeKind → Prop
  | scalar .., kind => kind = .scalar
  | enum .., kind => kind = .enum
  | union .., kind => kind = .union
  | entity _, kind => kind = .object ∨ kind = .interface ∨ kind = .inputObject

/-- The type that a definition makes up together with its extensions. -/
def TypeDefinition.namedType (ds : List Definition) (d : TypeDefinition) : NamedType :=
  .ofDeclared ⟨d, d.body :: extensionsOf d.name ds⟩

def TypeDefinition.declaration (ds : List Definition) (d : TypeDefinition) : Declaration :=
  .ofType (d.namedType ds)

/-- The types with a definition in a type map are those that the document defines under names of their own, in the order
of the document and with the places where it does so. -/
def ListsDefinitions (passages : List Passage) (map : List MappedType) : Prop :=
  map.filterMap (fun m => m.place.map (·, m.type)) =
    (typePassages passages).map fun p => (p.1, p.2.namedType (passages.map (·.definition)))

instance (passages : List Passage) (map : List MappedType) : Decidable (ListsDefinitions passages map) :=
  inferInstanceAs (Decidable (_ = _))

theorem isOf_declaration (ds : List Definition) (d : TypeDefinition) :
    (d.declaration ds).IsOf d.body.kind := by
  obtain ⟨about, name, dirs, body⟩ := d
  cases body with
  | object interfaces fields => exact .inl rfl
  | interface interfaces fields => exact .inr (.inl rfl)
  | inputObject fields => exact .inr (.inr rfl)
  | _ => exact rfl

theorem map_typePassages (passages : List Passage) :
    (typePassages passages).map (·.2) =
      ((passages.map (·.definition)).filterMap (·.type?)).filter (!Builtin.reserved.contains ·.name) := by
  rw [typePassages, List.map_filterMap, List.filter_filterMap, List.filterMap_map]
  congr 1
  funext p
  rw [Option.map_map]
  exact Option.map_id'

/-- The types of a schema are those of its passages, in order. -/
theorem types_ofDefinitions (passages : List Passage) :
    (Schema.ofDefinitions (passages.map (·.definition))).types =
      (typePassages passages).map fun p => p.2.namedType (passages.map (·.definition)) := by
  show declaredTypes _ = _
  rw [declaredTypes, declaredParts, ← map_typePassages, List.map_map, List.map_map]
  rfl

theorem kind_ofDeclared (t : DeclaredType) : (NamedType.ofDeclared t).content.kind = t.kind := by
  rw [NamedType.ofDeclared]
  cases t.kind <;> rfl

/-! ### The order of declarations -/

theorem weight_eq_rank (k : TypeKind) : k.weight = k.rank := by
  cases k <;> rfl

theorem eq_of_rank_eq {k k' : TypeKind} (h : k.rank = k'.rank) : k = k' := by
  cases k <;> cases k' <;> first | rfl | cases h

/-- The passages of types stand one behind the other. -/
theorem pairwise_typePassages {passages : List Passage} (h : passages.Pairwise (·.start < ·.start)) :
    (typePassages passages).Pairwise (·.1 < ·.1) := by
  rw [typePassages, List.pairwise_filterMap]
  refine h.imp fun {p q} hlt x hx y hy => ?_
  obtain ⟨d, -, rfl⟩ := Option.map_eq_some_iff.mp hx
  obtain ⟨e, -, rfl⟩ := Option.map_eq_some_iff.mp hy
  exact hlt

/-- One definition may stand before another one where they are sorted by kind, and then by their places. -/
def SortedBefore (p q : Nat × TypeDefinition) : Prop :=
  p.2.body.kind.rank < q.2.body.kind.rank ∨ p.2.body.kind.rank = q.2.body.kind.rank ∧ p.1 ≤ q.1

instance : DecidableRel SortedBefore := fun p q =>
  inferInstanceAs (Decidable (p.2.body.kind.rank < q.2.body.kind.rank ∨
    p.2.body.kind.rank = q.2.body.kind.rank ∧ p.1 ≤ q.1))

instance : Std.Total SortedBefore := by
  constructor
  intro p q
  unfold SortedBefore
  omega

instance : IsTrans (Nat × TypeDefinition) SortedBefore := by
  constructor
  intro p q r
  unfold SortedBefore
  omega

/-- As definitions stand in the order of their places, sorting them by the weights of their kinds is sorting them by kind
and place. -/
theorem pairwise_insertionSort_weight {l : List (Nat × TypeDefinition)} (h : l.Pairwise (·.1 < ·.1)) :
    (l.insertionSort fun p q => p.2.body.kind.weight ≤ q.2.body.kind.weight).Pairwise
      DisplayOrder.byKind.Precedes := by
  have hsame : l.Pairwise fun p q => p.2.body.kind.weight ≤ q.2.body.kind.weight ↔ SortedBefore p q := by
    refine h.imp fun {p q} hlt => ?_
    rw [weight_eq_rank, weight_eq_rank, SortedBefore]
    omega
  rw [insertionSort_eq_of_pairwise hsame]
  have hplaces : ((l.insertionSort SortedBefore).map (·.1)).Nodup := by
    refine ((List.perm_insertionSort SortedBefore l).map _).nodup_iff.mpr ?_
    exact List.pairwise_map.mpr (h.imp Nat.ne_of_lt)
  refine (List.pairwise_insertionSort SortedBefore l).imp₂ (fun p q hsorted hne => ?_) (List.pairwise_map.mp hplaces)
  exact hsorted.imp_right fun ⟨hrank, hle⟩ => ⟨eq_of_rank_eq hrank, Nat.lt_of_le_of_ne hle hne⟩

/-- The definitions can be arranged as their declarations are. -/
theorem exists_arranged {passages : List Passage} (h : passages.Pairwise (·.start < ·.start)) (order : DisplayOrder) :
    ∃ types : List (Nat × TypeDefinition), types.Perm (typePassages passages) ∧ types.Pairwise order.Precedes ∧
      (Schema.ofDefinitions (passages.map (·.definition))).inOrder order =
        types.map fun p => p.2.namedType (passages.map (·.definition)) := by
  have hplaces := pairwise_typePassages h
  cases order with
  | asIs => exact ⟨typePassages passages, .refl _, hplaces, inOrder_asIs.trans (types_ofDefinitions passages)⟩
  | byKind =>
    refine ⟨_, List.perm_insertionSort _ _, pairwise_insertionSort_weight hplaces, ?_⟩
    rw [inOrder_byKind, types_ofDefinitions]
    refine (List.map_insertionSort _ _ _ _ fun p _ q _ => ?_).symm
    rw [TypeDefinition.namedType, TypeDefinition.namedType, kind_ofDeclared, kind_ofDeclared]
    rfl

/-- What stands in a type map between the types with a definition does not show. -/
theorem declared_sortMapped_of_lists {passages : List Passage} (h : passages.Pairwise (·.start < ·.start))
    {map : List MappedType} (hmap : ListsDefinitions passages map) (order : DisplayOrder) :
    (sortMapped order map).filterMap (·.declared?) =
      (Schema.ofDefinitions (passages.map (·.definition))).inOrder order := by
  have htypes : map.filterMap (·.declared?) = (Schema.ofDefinitions (passages.map (·.definition))).types := by
    have hsnd := congrArg (List.map Prod.snd) hmap
    rw [List.map_filterMap, List.map_map] at hsnd
    simp only [Option.map_map, Function.comp_def] at hsnd
    exact hsnd.trans (types_ofDefinitions passages).symm
  cases order with
  | asIs =>
    have hplaces : map.filterMap (·.place) = (typePassages passages).map (·.1) := by
      have hfst := congrArg (List.map Prod.fst) hmap
      rw [List.map_filterMap, List.map_map] at hfst
      simpa only [Option.map_map, Function.comp_def, Option.map_id'] using hfst
    rw [declared_sortMapped_asIs, htypes, inOrder_asIs]
    rw [hplaces]
    exact List.pairwise_map.mpr ((pairwise_typePassages h).imp Nat.le_of_lt)
  | byKind => rw [declared_sortMapped_byKind, htypes, inOrder_byKind]

/-! ### Rearranged definitions -/

theorem Field.ofDefinition_unplaced (d : FieldDefinition) : ofDefinition d.unplaced = ofDefinition d := by
  have hargs : d.unplaced.arguments.map InputField.ofDefinition = d.arguments.map InputField.ofDefinition :=
    List.map_map
  rw [ofDefinition, hargs]
  rfl

theorem TypeContent.ofParts_unplaced (kind : TypeKind) (parts : List TypeBody) :
    ofParts kind (parts.map TypeBody.unplaced) = ofParts kind parts := by
  have hfields : ((parts.map TypeBody.unplaced).flatMap (·.outputFields)).map Field.ofDefinition =
      (parts.flatMap (·.outputFields)).map Field.ofDefinition := by
    simp only [List.flatMap_map, Resolution.outputFields_unplaced, ← List.map_flatMap, List.map_map,
      Function.comp_def, Field.ofDefinition_unplaced]
  cases kind with
  | scalar => rfl
  | object => exact congrArg object hfields
  | interface => exact congrArg interface hfields
  | union => simp only [ofParts, List.flatMap_map, Resolution.members_unplaced]
  | enum =>
    simp only [ofParts, List.flatMap_map, Resolution.values_unplaced, ← List.map_flatMap, List.map_map]
    rfl
  | inputObject =>
    simp only [ofParts, List.flatMap_map, Resolution.inputFields_unplaced, ← List.map_flatMap, List.map_map]
    rfl

theorem ofDeclared_unplacedType (t : DeclaredType) :
    NamedType.ofDeclared (Resolution.unplacedType t) = .ofDeclared t := by
  have hkind : (Resolution.unplacedType t).kind = t.kind := TypeBody.kind_unplaced _
  rw [NamedType.ofDeclared, hkind]
  exact congrArg _ (TypeContent.ofParts_unplaced t.kind t.parts)

theorem declaredTypes_unplaced (ds : List Definition) :
    declaredTypes (ds.map Definition.unplaced) = declaredTypes ds := by
  rw [declaredTypes, declaredParts_unplaced, List.map_map]
  exact List.map_congr_left fun t _ => ofDeclared_unplacedType t

section

variable {ds ds' : List Definition} (hds : Rules.NoTypeExtension ds)
  (hperm : (ds'.map Definition.unplaced).Perm (ds.map Definition.unplaced))
include hds hperm

/-- Rearranged definitions declare the same types. -/
theorem perm_declaredTypes : (declaredTypes ds').Perm (declaredTypes ds) := by
  rw [← declaredTypes_unplaced ds, ← declaredTypes_unplaced ds', declaredTypes, declaredTypes,
    declaredParts_unplaced, declaredParts_unplaced]
  exact (perm_declaredParts hds hperm).map _

/-- Rearranged definitions keep the rules, too. -/
theorem schemaFaults_of_perm_unplaced (h : schemaFaults ds = []) : schemaFaults ds' = [] := by
  rw [← schemaFaults_unplaced] at h ⊢
  exact schemaFaults_of_perm hds.unplaced hperm h

end

theorem nodup_declaredParts {ds : List Definition} (h : schemaFaults ds = []) :
    ((declaredParts ds).map (·.name)).Nodup := by
  have hnames := nodup_declaredTypes h
  rw [declaredTypes, List.map_map] at hnames
  exact hnames

/-- Schemas with the same types have the same declarations, in another order perhaps. -/
theorem perm_declarations {s s' : Schema} (h : s'.types.Perm s.types) (order : DisplayOrder) :
    (s'.declarations order).Perm (s.declarations order) :=
  (((perm_inOrder s' order).trans h).trans (perm_inOrder s order).symm).map _

/-- The same definitions in another order make up a schema with the same declarations. -/
theorem exists_schema_of_perm {text text' : String} {s : Schema} {passages passages' : List Passage}
    (hs : buildSchema text = .ok s) (hparse : parseDocument text = .ok passages)
    (hparse' : parseDocument text' = .ok passages')
    (hplain : ∀ p ∈ passages, ∀ e, p.definition ≠ .typeExtension e)
    (hperm : (passages'.map (·.definition.unplaced)).Perm (passages.map (·.definition.unplaced))) :
    ∃ s', buildSchema text' = .ok s' ∧ ∀ order, (s'.declarations order).Perm (s.declarations order) := by
  obtain ⟨_, hparsed, hfaults, hresolve, rfl⟩ := buildSchema_eq_ok_iff.mp hs
  cases hparse.symm.trans hparsed
  have hds : Rules.NoTypeExtension (passages.map (·.definition)) := by
    intro d hd
    obtain ⟨p, hp, rfl⟩ := List.mem_map.mp hd
    exact hplain p hp
  have hdefinitions : ((passages'.map (·.definition)).map Definition.unplaced).Perm
      ((passages.map (·.definition)).map Definition.unplaced) := by
    rwa [List.map_map, List.map_map]
  have hfaults' := schemaFaults_of_perm_unplaced hds hdefinitions hfaults
  have hresolve' := resolve_of_perm hds hdefinitions (nodup_declaredParts hfaults) hresolve
  refine ⟨_, buildSchema_eq_ok_iff.mpr ⟨passages', hparse', hfaults', hresolve', rfl⟩, fun order => ?_⟩
  exact perm_declarations (perm_declaredTypes hds hdefinitions) order

/-- The declarations of a schema are those of the types that its text defines under names of their own, one
for each definition and of its kind. They come from every type map that lists the definitions, sorted. Either they stand
in the order of the text, or scalars, enums, interfaces, input types, unions and objects follow one another, each kind in
the order of the text. If the text extends no type, then its definitions make up a schema in any other order too, with
the same declarations rearranged. -/
theorem declarations_arranged {text : String} {s : Schema} (hs : buildSchema text = .ok s) :
    ∃ passages, parseDocument text = .ok passages ∧ passages.Pairwise (·.start < ·.start) ∧
      (∀ map, ListsDefinitions passages map → ∀ order,
        s.declarations order = ((sortMapped order map).filterMap (·.declared?)).map .ofType) ∧
      (∀ order, ∃ types : List (Nat × TypeDefinition),
        types.Perm (typePassages passages) ∧ types.Pairwise order.Precedes ∧
          List.Forall₂ (fun type d =>
            d = type.2.declaration (passages.map (·.definition)) ∧ d.IsOf type.2.body.kind)
            types (s.declarations order)) ∧
      ((∀ p ∈ passages, ∀ e, p.definition ≠ .typeExtension e) →
        ∀ text' passages', parseDocument text' = .ok passages' →
          (passages'.map (·.definition.unplaced)).Perm (passages.map (·.definition.unplaced)) →
          ∃ s', buildSchema text' = .ok s' ∧
            ∀ order, (s'.declarations order).Perm (s.declarations order)) := by
  obtain ⟨passages, hparse, -, -, rfl⟩ := buildSchema_eq_ok_iff.mp hs
  have hstarts := starts_of_parseDocument hparse
  refine ⟨passages, hparse, hstarts, fun map hmap order => ?_, fun order => ?_,
    fun hplain text' passages' hparse' hperm => ?_⟩
  · rw [declared_sortMapped_of_lists hstarts hmap, Schema.declarations]
  · obtain ⟨types, hperm, hsorted, htypes⟩ := exists_arranged hstarts order
    refine ⟨types, hperm, hsorted, ?_⟩
    rw [Schema.declarations, htypes, List.map_map, List.forall₂_map_right_iff, List.forall₂_same]
    exact fun t _ => ⟨rfl, isOf_declaration _ t.2⟩
  · exact exists_schema_of_perm hs hparse hparse' hplain hperm

set_option maxRecDepth 4000 in
/-- A field with an argument, an input type, the built-in scalar `ID` and a scalar, and the same definitions the
other way round. In the type map the built-in scalars stand between and behind them. -/
theorem declarations_arranged_of_query :
    let text := "type Query \x7b a(f: F = \x7b\x7d): D @deprecated \x7d input F \x7b n: Int \x7d scalar ID scalar D"
    let moved := "scalar D scalar ID input F \x7b n: Int \x7d type Query \x7b a(f: F = \x7b\x7d): D @deprecated \x7d"
    let map (types : List NamedType) : List MappedType :=
      ((types.zip [0, 43]).map fun (t, start) => ⟨t, some start⟩)
      ++ [.int, .id].map (fun scalar => ⟨Builtin.scalar scalar, none⟩)
      ++ (types.drop 2).map (⟨·, some 72⟩) ++ [⟨Builtin.scalar .string, none⟩]
    ∃ s s', buildSchema text = .ok s ∧ buildSchema moved = .ok s' ∧
      (s.declarations .asIs).map (·.name) = ["Query", "F", "D"] ∧
      (s.declarations .byKind).map (·.name) = ["D", "F", "Query"] ∧
      (s'.declarations .asIs).map (·.name) = ["D", "F", "Query"] ∧
      (map s.types).map (·.type.name) = ["Query", "F", "Int", "ID", "D", "String"] ∧
      ∀ order, s.declarations order = ((sortMapped order (map s.types)).filterMap (·.declared?)).map .ofType ∧
        (s'.declarations order).Perm (s.declarations order) := by
  intro text moved map
  have hrun : (buildSchema text).toOption.map (fun s =>
      ((s.declarations .asIs).map (·.name), (s.declarations .byKind).map (·.name),
        (map s.types).map (·.type.name))) =
        some (["Query", "F", "D"], ["D", "F", "Query"], ["Query", "F", "Int", "ID", "D", "String"]) := by
    decide +kernel
  have hmoved : (buildSchema moved).toOption.map (fun s => (s.declarations .asIs).map (·.name)) =
      some ["D", "F", "Query"] := by
    decide +kernel
  have hlists : (parseDocument text).toOption.all (fun passages =>
      decide (ListsDefinitions passages (map (declaredTypes (passages.map (·.definition)))))) = true := by
    decide +kernel
  let query : List Token := [.name "type", .name "Query", .punctuator .braceL, .name "a", .punctuator .parenL,
    .name "f", .punctuator .colon, .name "F", .punctuator .equals, .punctuator .braceL, .punctuator .braceR,
    .punctuator .parenR, .punctuator .colon, .name "D", .punctuator .atSign, .name "deprecated",
    .punctuator .braceR]
  let input : List Token := [.name "input", .name "F", .punctuator .braceL, .name "n", .punctuator .colon,
    .name "Int", .punctuator .braceR]
  let scalar (name : String) : List Token := [.name "scalar", .name name]
  have htokens : tokens text = query ++ input ++ scalar "ID" ++ scalar "D" ++ [.eof] := by decide +kernel
  have htokens' : tokens moved = scalar "D" ++ scalar "ID" ++ input ++ query ++ [.eof] := by decide +kernel
  have hreversed : (Parser.document (.ofList (tokens moved))).toOption.map (·.1.map (·.1.unplaced)) =
      (Parser.document (.ofList (tokens text))).toOption.map fun ds => (ds.1.map (·.1.unplaced)).reverse := by
    rw [htokens, htokens']
    rfl
  have htypes : (parseDocument text).toOption.map (·.all (·.definition.type?.isSome)) = some true := by
    decide +kernel
  obtain ⟨s, hs, hnames⟩ := Option.map_eq_some_iff.mp hrun
  obtain ⟨s', hs', hnames'⟩ := Option.map_eq_some_iff.mp hmoved
  simp only [Prod.mk.injEq] at hnames
  obtain ⟨hasIs, hbyKind, hmap⟩ := hnames
  rw [toOption_eq_some_iff] at hs hs'
  obtain ⟨passages, hparse, -, hsorted, -, hrearranged⟩ := declarations_arranged hs
  obtain ⟨passages', hparse', -⟩ := buildSchema_eq_ok_iff.mp hs'
  have hlisted : ListsDefinitions passages (map s.types) := by
    obtain ⟨_, hparsed, -, -, rfl⟩ := buildSchema_eq_ok_iff.mp hs
    cases hparse.symm.trans hparsed
    rw [hparse] at hlists
    exact of_decide_eq_true hlists
  have hperm : (passages'.map (·.definition.unplaced)).Perm (passages.map (·.definition.unplaced)) := by
    obtain ⟨ds, _, hread, rfl⟩ := parseDocument_eq_ok_iff.mp hparse
    obtain ⟨ds', _, hread', rfl⟩ := parseDocument_eq_ok_iff.mp hparse'
    rw [hread, hread'] at hreversed
    have hsame : ds'.map (·.1.unplaced) = (ds.map (·.1.unplaced)).reverse := Option.some.inj hreversed
    rw [List.map_map, List.map_map]
    exact (List.Perm.of_eq hsame).trans (List.reverse_perm _)
  have hextensions : ∀ p ∈ passages, ∀ e, p.definition ≠ .typeExtension e := by
    rintro p hp e he
    rw [hparse] at htypes
    have htype := List.all_eq_true.mp (Option.some.inj htypes) p hp
    rw [he] at htype
    cases htype
  obtain ⟨_, hbuilt, hdeclarations⟩ := hrearranged hextensions moved passages' hparse' hperm
  cases hs'.symm.trans hbuilt
  exact ⟨s, s', hs, hs', hasIs, hbyKind, hnames', hmap, fun order => ⟨hsorted _ hlisted order, hdeclarations order⟩⟩

end GraphDecl
