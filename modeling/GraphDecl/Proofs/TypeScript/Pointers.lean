import GraphDecl.Proofs.Schema.DistinctNames
import GraphDecl.Proofs.TypeScript.Capture
import GraphDecl.Proofs.TypeScript.Members

/-!
The dotted names in flat declarations. Each of them names a namespace and a type in it. The namespace stands
beside the flat declaration, with the same names in the same order, and in it the names are nested as they are
selected.
-/

namespace GraphDecl

open Rendering

/-! ### Dotted names at a place -/

namespace Decl

/-- The bodies of the namespaces of this name. Several ones make up one namespace. -/
def spacesNamed (name : String) (body : List Decl) : List (List Decl) :=
  body.filterMap fun
    | space n inner => if n = name then some inner else none
    | type .. | record _ => none

/-- What a name stands for as a namespace. `around` are the bodies around the place, the innermost one first;
the first of them that has namespaces of this name has those that are meant. -/
def spacesAround (name : String) : (around : List (List Decl)) → List (List Decl)
  | [] => []
  | body :: around =>
    if (spacesNamed name body).isEmpty then spacesAround name around else spacesNamed name body

/-- A dotted name stands for a type that is declared in the namespace that it names. -/
def Resolves (around : List (List Decl)) (reference : String) : Prop :=
  ∃ space name, Text.pieces '.' reference = [space, name] ∧
    ∃ body ∈ spacesAround space around, name ∈ typeNames body

theorem mem_spacesAround {name : String} {inner body : List Decl} (h : .space name inner ∈ body)
    (around : List (List Decl)) : inner ∈ spacesAround name (body :: around) := by
  have hmem : inner ∈ spacesNamed name body := List.mem_filterMap.mpr ⟨_, h, if_pos rfl⟩
  rw [spacesAround, if_neg (by simpa using List.ne_nil_of_mem hmem)]
  exact hmem

end Decl

/-- Flat members belong to a namespace with this body and these fields. They have the names of the fields, in
their order, and each one points at the type of its own name. At the place of the members this very namespace
is found under its name, and what they point at is declared in it. -/
structure PointInto (around : List (List Decl)) (members : List Member) (space : String)
    (body : List Decl) (fields : List String) : Prop where
  names_eq : members.map (·.name) = fields
  types_eq : members.map (·.type) = fields.map (dotted space)
  found : body ∈ Decl.spacesAround space around
  declared : fields <:+ Decl.typeNames body
  resolves : ∀ m ∈ members, Decl.Resolves around m.type

/-- Members point into a namespace that is found around them. -/
theorem pointInto_of_found {around : List (List Decl)} {members : List Member} {space : String}
    {body : List Decl} {fields : List String} (hspace : '.' ∉ space.toList)
    (hfields : ∀ n ∈ fields, isName n = true) (hnames : members.map (·.name) = fields)
    (htypes : members.map (·.type) = fields.map (dotted space))
    (hfound : body ∈ Decl.spacesAround space around) (hdeclared : fields <:+ Decl.typeNames body) :
    PointInto around members space body fields := by
  refine ⟨hnames, htypes, hfound, hdeclared, ?_⟩
  intro m hm
  have htype : m.type ∈ fields.map (dotted space) := htypes ▸ List.mem_map_of_mem hm
  obtain ⟨n, hn, hmtype⟩ := List.mem_map.mp htype
  have hpieces : Text.pieces '.' m.type = [space, n] := by
    rw [← hmtype, pieces_dotted, Text.pieces_eq_singleton hspace, pieces_name (hfields n hn),
      List.singleton_append]
  exact ⟨space, n, hpieces, body, hfound, hdeclared.subset hn⟩

theorem types_flatMembers (space : String) (names : List String) :
    (flatMembers space names).map (·.type) = names.map (dotted space) := by
  simp [flatMembers, Function.comp_def]

/-! ### Types -/

/-- The namespaces that stand in the file for a schema. -/
def NamedType.spaces (types : List NamedType) : List Decl :=
  (types.filter (·.content.isEntity)).map fun t => .space (camelCase t.name) t.body

theorem TypeContent.Named.fieldNames {content : TypeContent} (h : content.Named) :
    ∀ n ∈ content.fieldNames, isName n = true := by
  cases content with
  | object fields => exact List.forall_mem_map.mpr fun f hf => (h f hf).name
  | interface fields => exact List.forall_mem_map.mpr fun f hf => (h f hf).name
  | inputObject fields => exact List.forall_mem_map.mpr fun f hf => (h f hf).1
  | _ => exact fun n hn => nomatch hn

variable {sdl text : String} {s : Schema} {order : DisplayOrder}

/-- The members of a type's interface point into its namespace. -/
theorem pointInto_ofType (hs : buildSchema sdl = .ok s) {t : NamedType} (ht : t ∈ s.inOrder order) {e : Entity}
    (he : Declaration.ofType t = .entity e) :
    EndWithSpace (declarationLines (.ofType t)) e.space.name t.body ∧
      PointInto [NamedType.spaces (s.inOrder order)] e.flat.members e.space.name t.body
        (e.space.fields.map (·.name)) := by
  have hentity : t.content.isEntity = true := by
    obtain ⟨description, name, content⟩ := t
    cases content <;> first | rfl | cases he
  rw [ofType_eq_entity hentity, Declaration.entity.injEq] at he
  subst he
  refine ⟨endWithSpace_declarationLines hentity, ?_⟩
  have htypes := mem_inOrder.mp ht
  have hfields : (Entity.ofFields t t.content.shapes).space.fields.map (·.name) = t.content.fieldNames := by
    rw [← map_name_shapes]
    simp [Entity.ofFields]
  have hspace : .space (camelCase t.name) t.body ∈ NamedType.spaces (s.inOrder order) :=
    List.mem_map_of_mem (List.mem_filter.mpr ⟨ht, hentity⟩)
  rw [hfields]
  apply pointInto_of_found
  · exact dot_not_mem_camelCase (isName_of_mem_types hs htypes)
  · exact (named_of_mem_types hs htypes).fieldNames
  · rw [← map_name_shapes]
    simp [Entity.ofFields]
  · rw [← map_name_shapes]
    simp [Entity.ofFields]
  · exact Decl.mem_spacesAround hspace []
  · simp [typeNames_body, map_name_shapes]

/-! ### Results -/

namespace ResultField

mutual

/-- The flat selection of a field points into the namespace beside it, and so it is for all fields below.
`around` are the bodies around the field. -/
def Points (around : List (List Decl)) : ResultField → Prop
  | leaf .. => True
  | composite name members _ fields =>
    PointInto around members name (declsOf fields) (fields.map (·.name)) ∧
      AllPoint (declsOf fields :: around) fields

def AllPoint (around : List (List Decl)) : List ResultField → Prop
  | [] => True
  | f :: fs => f.Points around ∧ AllPoint around fs

end

end ResultField

variable {field? : String → Option FieldType}

theorem isName_getD {label : Option String} {name : String} (hlabel : ∀ l, label = some l → isName l = true)
    (hname : isName name = true) : isName (label.getD name) = true := by
  cases label with
  | none => exact hname
  | some l => exact hlabel l rfl

theorem isName_of_mem_results {xs : List Selection} {fields : List ResultField}
    (h : s.resultsOn field? xs = some fields) (hnamed : Selection.AllNamed xs) :
    ∀ n ∈ fields.map (·.name), isName n = true := by
  rw [Schema.names_resultsOn h]
  induction h using Schema.resultsInduction with
  | nil field? => simp
  | field field? label name args dirs below f xs fs h hxs hresult ihbelow ih =>
    rw [List.map_cons, List.forall_mem_cons]
    exact ⟨isName_getD hnamed.1.1 hnamed.1.2.1, ih hnamed.2⟩

/-- The results of a selection point into the namespaces beside them, in whatever body they stand. -/
theorem allPoint_of_resultsOn {xs : List Selection} {fields : List ResultField}
    (h : s.resultsOn field? xs = some fields) (hnamed : Selection.AllNamed xs) {body : List Decl}
    (hbody : ∀ d ∈ ResultField.declsOf fields, d ∈ body) (around : List (List Decl)) :
    ResultField.AllPoint (body :: around) fields := by
  induction h using Schema.resultsInduction generalizing body around with
  | nil field? => exact trivial
  | field field? label name args dirs below f xs fs h hxs hresult ihbelow ih =>
    obtain ⟨⟨hlabel, hname, hbelow⟩, hnamed⟩ := hnamed
    rw [ResultField.declsOf, List.forall_mem_append] at hbody
    refine ⟨?_, ih hnamed hbody.2 around⟩
    cases hresult with
    | typename => exact trivial
    | leaf hne htype => exact trivial
    | composite hne htype hinside =>
      refine ⟨?_, ihbelow _ rfl hinside hbelow (fun d hd => hd) _⟩
      apply pointInto_of_found
      · exact dot_not_mem (isName_getD hlabel hname)
      · exact isName_of_mem_results hinside hbelow
      · exact names_flatMembers _ _
      · exact types_flatMembers _ _
      · exact Decl.mem_spacesAround (hbody.1 _ List.mem_cons_self) around
      · simp [typeNames_declsOf]

/-! ### Operations -/

def Operation.spaces (ops : List Operation) : List Decl := ops.map fun op => .space op.space.name op.body

theorem dot_not_mem_spaceName {name signature : String} {d : OperationDefinition} {op : Operation}
    (hname : isName name = true) (h : compileNamed s name signature d = .ok op) :
    '.' ∉ op.space.name.toList := by
  obtain ⟨root, -, h⟩ := bind_eq_ok_iff.mp h
  obtain ⟨names, -, h⟩ := bind_eq_ok_iff.mp h
  obtain ⟨fields, -, h⟩ := bind_eq_ok_iff.mp h
  cases h
  have hkind : isName d.kind.text = true := by
    cases d.kind <;> decide
  have hspace : (operationNamespaceName name d.kind.text).toList =
      (camelCase name).toList ++ (camelCase d.kind.text).toList := by
    simp [operationNamespaceName]
  rw [hspace, List.mem_append, not_or]
  exact ⟨dot_not_mem_camelCase hname, dot_not_mem_camelCase hkind⟩

/-- The flat selections of an operation point into its namespaces. -/
theorem pointInto_compileNamed {name signature : String} {d : OperationDefinition} {op : Operation}
    (hd : d.Named) (hname : d.name = some name) (h : compileNamed s name signature d = .ok op)
    {ops : List Operation} (hop : op ∈ ops) :
    PointInto [Operation.spaces ops] op.selection.members op.space.name op.body
        (op.space.fields.map (·.name)) ∧
      ResultField.AllPoint [op.body, Operation.spaces ops] op.space.fields := by
  obtain ⟨-, hresults⟩ := imports_compileNamed hd h
  obtain ⟨-, hmembers⟩ := interfaces_compileNamed h
  rw [← Schema.names_resultsOn hresults] at hmembers
  have hspace : .space op.space.name op.body ∈ Operation.spaces ops := List.mem_map_of_mem hop
  constructor
  · apply pointInto_of_found
    · exact dot_not_mem_spaceName (hd.name name hname) h
    · exact isName_of_mem_results hresults hd.selections
    · rw [hmembers, names_flatMembers]
    · rw [hmembers, types_flatMembers]
    · exact Decl.mem_spacesAround hspace []
    · rw [typeNames_operation]
      exact List.suffix_cons _ _
  · exact allPoint_of_resultsOn hresults hd.selections (fun d hd => List.mem_cons_of_mem _ hd) _

/-! ### Trees of names -/

inductive NameTree
  | node (name : String) (below : List NameTree)

namespace ResultField

mutual

def tree : ResultField → NameTree
  | leaf name _ => .node name []
  | composite name _ _ fields => .node name (trees fields)

def trees : List ResultField → List NameTree
  | [] => []
  | f :: fs => f.tree :: trees fs

end

end ResultField

namespace Selection

mutual

/-- The response names that are selected. What an inline fragment selects stands among the fields around it; a
fragment that is spread has its names elsewhere. -/
def trees : Selection → List NameTree
  | field label name _ _ below => [.node (label.getD name) (treesBelow below)]
  | spread .. => []
  | inline _ _ selections => treesAmong selections

def treesBelow : Option (List Selection) → List NameTree
  | none => []
  | some selections => treesAmong selections

def treesAmong : List Selection → List NameTree
  | [] => []
  | x :: xs => x.trees ++ treesAmong xs

end

mutual

/-- Whether no response name is selected below a field `__typename`, at any depth. -/
def bareTypename : Selection → Bool
  | field _ name _ _ below => if name = typenameField then (treesBelow below).isEmpty else bareInside below
  | spread .. => true
  | inline _ _ selections => allBareTypename selections

def bareInside : Option (List Selection) → Bool
  | none => true
  | some selections => allBareTypename selections

def allBareTypename : List Selection → Bool
  | [] => true
  | x :: xs => x.bareTypename && allBareTypename xs

end

end Selection

/-- The tree of the results is the tree of what is selected, if and only if nothing is selected below a field
`__typename`, whose result is a leaf. -/
theorem trees_eq_iff {xs : List Selection} {fields : List ResultField}
    (h : s.resultsOn field? xs = some fields) :
    ResultField.trees fields = Selection.treesAmong xs ↔ Selection.allBareTypename xs = true := by
  induction h using Schema.resultsInduction with
  | nil field? => simp [ResultField.trees, Selection.treesAmong, Selection.allBareTypename]
  | field field? label name args dirs below f xs fs h hxs hresult ihbelow ih =>
    have hfirst : f.tree = .node (label.getD name) (Selection.treesBelow below) ↔
        (Selection.field label name args dirs below).bareTypename = true := by
      rw [Selection.bareTypename]
      cases hresult with
      | typename =>
        rw [if_pos rfl, List.isEmpty_iff]
        exact ⟨fun h => (NameTree.node.inj h).2.symm, fun h => h ▸ rfl⟩
      | leaf hne htype => simp [ResultField.tree, Selection.treesBelow, Selection.bareInside]
      | composite hne htype hinside =>
        simp [ResultField.tree, Selection.treesBelow, Selection.bareInside, hne, ihbelow _ rfl hinside]
    rw [ResultField.trees, Selection.treesAmong, Selection.trees, List.singleton_append,
      List.cons_eq_cons, hfirst, ih, Selection.allBareTypename, Bool.and_eq_true]

/-- Flat declarations and namespaces agree. The interface of every object, interface and input type points
into the namespace that is printed behind it, the flat selection of every operation into the namespace of the
operation, and the object type of every composite field into the namespace beside it: they list the same names
in the same order, and every dotted name is found. The names in the namespace of an operation are nested as
they are selected, if and only if nothing is selected below a field `__typename`. -/
theorem flat_matches_namespaces {c : Compilation} (hs : buildSchema sdl = .ok s)
    (hc : compile s order text = .ok c) :
    List.Forall₂ (fun t d => d = .ofType t ∧ ∀ e, d = .entity e →
      EndWithSpace (declarationLines d) e.space.name t.body ∧
      PointInto [NamedType.spaces (s.inOrder order)] e.flat.members e.space.name t.body
        (e.space.fields.map (·.name))) (s.inOrder order) c.types ∧
    List.Forall₂ (fun d op =>
      EndWithSpace (operationLines op) op.space.name op.body ∧
      PointInto [Operation.spaces c.operations] op.selection.members op.space.name op.body
        (op.space.fields.map (·.name)) ∧
      ResultField.AllPoint [op.body, Operation.spaces c.operations] op.space.fields ∧
      (ResultField.trees op.space.fields = Selection.treesAmong d.selections ↔
        Selection.allBareTypename d.selections = true)) (operationsOf text) c.operations := by
  obtain ⟨htypes, -, hops⟩ := compile_eq_ok hc
  constructor
  · rw [htypes, Schema.declarations, List.forall₂_map_right_iff, List.forall₂_same]
    intro t ht
    exact ⟨rfl, fun e he => pointInto_ofType hs ht he⟩
  · have hmem := (List.forall₂_and_left (p := (· ∈ c.operations)) _ _).mpr ⟨fun op hop => hop, hops.flip⟩
    refine hmem.flip.imp ?_
    rintro d op ⟨hop, hd, name, signature, hname, hcompile⟩
    obtain ⟨hselection, hbelow⟩ := pointInto_compileNamed hd hname hcompile hop
    obtain ⟨-, hresults⟩ := imports_compileNamed hd hcompile
    exact ⟨endWithSpace_operationLines op, hselection, hbelow, trees_eq_iff hresults⟩

/-- What is selected below `__typename` is nowhere in the namespace. -/
theorem name_below_typename_left_out :
    let sdl := "type Query \x7b a: Int \x7d"
    let text := "query Q \x7b __typename \x7b __typename \x7d \x7d"
    ∃ s op d, buildSchema sdl = .ok s ∧ compileOperations s text = .ok [op] ∧ operationsOf text = [d] ∧
      Decl.linesOf op.body = ["export interface Arguments \x7b", "\x7d", "export type __typename = string;"] ∧
      ResultField.trees op.space.fields ≠ Selection.treesAmong d.selections := by
  intro sdl text
  have hrun : ((buildSchema sdl).toOption.bind fun s => (compileOperations s text).toOption.map
      (·.map fun op => Decl.linesOf op.body)) =
        some [["export interface Arguments \x7b", "\x7d", "export type __typename = string;"]] := by
    decide +kernel
  have hbare : (operationsOf text).map (fun d => Selection.allBareTypename d.selections) = [false] := by
    decide +kernel
  obtain ⟨s, op, hs, hops, hlines⟩ := exists_schema_operation_of_map hrun
  obtain ⟨d, hd, hbare⟩ := List.map_eq_singleton_iff.mp hbare
  refine ⟨s, op, d, hs, hops, hd, hlines, ?_⟩
  intro htrees
  have hcompiled := forall₂_of_compileOperations hops
  rw [hd, List.forall₂_cons] at hcompiled
  obtain ⟨⟨hnamed, name, signature, -, hop⟩, -⟩ := hcompiled
  rw [trees_eq_iff (imports_compileNamed hnamed hop).2, hbare] at htrees
  cases htrees

/-- A type in camel case, and two levels below the root that share a name. -/
theorem flat_matches_namespaces_of_posts :
    let sdl := "type Query \x7b posts: [post_item!] \x7d type post_item \x7b by: Author! \x7d type Author \x7b name: String \x7d"
    let text := "query posts \x7b by: posts \x7b by \x7b kind: __typename name \x7d \x7d \x7d"
    ∃ s c op d, buildSchema sdl = .ok s ∧ compile s .byKind text = .ok c ∧ c.operations = [op] ∧
      operationsOf text = [d] ∧ op.space.name = "PostsQuery" ∧
      op.selection.members.map (·.type) = ["PostsQuery.by"] ∧
      c.types.map (·.name) = ["Query", "PostItem", "Author"] ∧
      List.Forall₂ (fun t d => ∀ e, d = .entity e →
        PointInto [NamedType.spaces (s.inOrder .byKind)] e.flat.members e.space.name t.body
          (e.space.fields.map (·.name))) (s.inOrder .byKind) c.types ∧
      PointInto [Operation.spaces [op]] op.selection.members "PostsQuery" op.body
        (op.space.fields.map (·.name)) ∧
      ResultField.AllPoint [op.body, Operation.spaces [op]] op.space.fields ∧
      ResultField.trees op.space.fields = Selection.treesAmong d.selections := by
  intro sdl text
  have hrun : ((buildSchema sdl).toOption.bind fun s => (compile s .byKind text).toOption.map fun c =>
      (c.operations.map fun op => (op.space.name, op.selection.members.map (·.type)),
        c.types.map (·.name))) =
        some ([("PostsQuery", ["PostsQuery.by"])], ["Query", "PostItem", "Author"]) := by
    decide +kernel
  have hbare : (operationsOf text).map (fun d => Selection.allBareTypename d.selections) = [true] := by
    decide +kernel
  obtain ⟨s, hs, hrun⟩ := Option.bind_eq_some_iff.mp hrun
  obtain ⟨c, hc, hrun⟩ := Option.map_eq_some_iff.mp hrun
  obtain ⟨d, hd, hbare⟩ := List.map_eq_singleton_iff.mp hbare
  rw [Prod.mk.injEq] at hrun
  obtain ⟨hops, htypes⟩ := hrun
  obtain ⟨op, hop, hnames⟩ := List.map_eq_singleton_iff.mp hops
  rw [Prod.mk.injEq] at hnames
  obtain ⟨hspace, hmembers⟩ := hnames
  rw [toOption_eq_some_iff] at hs hc
  have hmatches := flat_matches_namespaces hs hc
  rw [hop, hd, List.forall₂_cons] at hmatches
  obtain ⟨hentities, ⟨-, hselection, hbelow, htrees⟩, -⟩ := hmatches
  refine ⟨s, c, op, d, hs, hc, hop, hd, hspace, hmembers, htypes, ?_, hspace ▸ hselection, hbelow,
    htrees.mpr hbare⟩
  exact hentities.imp fun t d h e he => (h.2 e he).2

end GraphDecl
