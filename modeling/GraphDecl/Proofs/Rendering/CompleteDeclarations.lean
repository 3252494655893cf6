import GraphDecl.Proofs.Rendering.Descriptions
import GraphDecl.Proofs.TypeScript.Statements

/-!
Declarations without gaps. What is printed for a type of a schema is made of whole statements, as long as camel case
leaves a name to declare and a union has members.
-/

namespace GraphDecl

open Rendering TypeScript

/-! ### Texts of statements -/

/-- Apart from comments, the text is statements from the first line to the last. -/
def IsComplete (text : String) : Prop :=
  Statements (Text.pieces '\n' (String.ofList (withoutComments text.toList)))

theorem Rendering.Documents.isCode {ls ks : List String} (h : Documents ls ks) : ∀ k ∈ ks, isCode k = true := by
  induction h with
  | nil => exact fun k hk => nomatch hk
  | line hl _ ih => exact List.forall_mem_cons.mpr ⟨hl, ih⟩
  | comment _ _ _ ih => exact ih

/-- A text is cut into its lines without comments, and nothing behind the last line feed. -/
theorem isComplete_iff {ls ks : List String} (h : Documents ls ks) :
    IsComplete (unlines ls) ↔ Statements (ks ++ [""]) := by
  have hpieces := pieces_unlines_append (fun k hk => break_not_mem_of_isCode (h.isCode k hk)) ""
  rw [String.append_empty] at hpieces
  rw [IsComplete, h.withoutComments_unlines, String.ofList_toList, hpieces]
  rfl

/-- Lines that are statements without their descriptions are complete. -/
theorem Rendering.Documents.isComplete {ls ks : List String} (h : Documents ls ks) (hks : Statements ks) :
    IsComplete (unlines ls) :=
  (isComplete_iff h).mpr (hks.append (.blank .nil))

/-! ### Declarations without gaps -/

/-- The interface and its members have names and types. -/
structure Interface.IsWhole (i : Interface) : Prop where
  name : isName i.name = true
  members : ∀ m ∈ i.members, isName m.name = true ∧ IsTypeText m.type

structure FieldAlias.IsWhole (f : FieldAlias) : Prop where
  name : isName f.name = true
  type : IsTypeText f.type
  arguments : ∀ i ∈ f.arguments, i.IsWhole

/-- Everything that the declaration gives a name or a type to has one. -/
def Declaration.IsWhole : Declaration → Prop
  | scalar name _ => isName name = true
  | enum name values _ => isName name = true ∧ ∀ v ∈ values, isName v.name = true
  | union name types _ => isName name = true ∧ IsTypeText (Text.joinWith " | " types)
  | entity e => e.flat.IsWhole ∧ isName e.space.name = true ∧ ∀ f ∈ e.space.fields, f.IsWhole

theorem interfaceLines_undescribed (i : Interface) : interfaceLines i.undescribed none =
    ("export interface " ++ i.name ++ " \x7b") ::
      (indent 2 (i.undescribed.members.map memberLine) ++ ["\x7d"]) :=
  interfaceLines_of_plain (List.forall_mem_map.mpr fun _ _ => rfl)

theorem statements_interfaceLines {i : Interface} (h : i.IsWhole) :
    Statements (interfaceLines i.undescribed none) := by
  rw [interfaceLines_undescribed]
  exact .record h.name (List.forall_mem_map.mpr h.members) .nil

theorem statements_argumentLines {name : String} (hname : isName name = true) {arguments : Option Interface}
    (h : ∀ i ∈ arguments, i.IsWhole) : Statements (argumentLines name (arguments.map (·.undescribed))) := by
  cases arguments with
  | none => exact .nil
  | some i =>
    rw [Option.map_some, argumentLines]
    split
    · exact .nil
    · exact .space false hname (statements_interfaceLines (h i rfl)) .nil

/-- The lines of a field without a description, before they are moved into the namespace. -/
def fieldLines (f : FieldAlias) : List String :=
  argumentLines f.name f.arguments ++ ["export type " ++ f.name ++ " = " ++ f.type ++ ";"]

theorem statements_fieldLines {f : FieldAlias} (h : f.IsWhole) : Statements (fieldLines f.undescribed) :=
  (statements_argumentLines h.name h.arguments).append (.type h.name h.type .nil)

theorem entityLines_undescribed (e : Entity) : entityLines e.undescribed =
    interfaceLines e.flat.undescribed none ++ "" :: spaceLine true e.space.name ::
      (indent 2 ((e.space.fields.map (·.undescribed)).flatMap fieldLines) ++ ["\x7d"]) := by
  have hfields : (e.space.fields.map (·.undescribed)).flatMap aliasLines =
      indent 2 ((e.space.fields.map (·.undescribed)).flatMap fieldLines) := by
    rw [indent, List.map_flatMap, List.flatMap_map, List.flatMap_map]
    exact List.flatMap_congr fun f _ => aliasLines_eq_indent f.undescribed
  have hopen : "export declare namespace " ++ e.space.name ++ " \x7b" = spaceLine true e.space.name := rfl
  simp [entityLines, Entity.undescribed, hfields, hopen]

theorem enumLines_undescribed (name : String) (values : List EnumValue) (description : Option String) :
    declarationLines (Declaration.enum name values description).undescribed =
      ("export enum " ++ name ++ " \x7b") ::
        (indent 2 ((values.map (·.name)).map fun v => v ++ " = '" ++ v ++ "',") ++ ["\x7d"]) := by
  have hvalues : (values.map fun v => { v with description := none }).flatMap enumValueLines =
      indent 2 ((values.map (·.name)).map fun v => v ++ " = '" ++ v ++ "',") := by
    rw [indent, List.map_map, List.map_map, List.flatMap_map, List.map_eq_flatMap]
    rfl
  rw [Declaration.undescribed, declarationLines, hvalues]
  rfl

/-- A declaration that lacks nothing is printed as whole statements. -/
theorem statements_declarationLines {d : Declaration} (h : d.IsWhole) :
    Statements (declarationLines d.undescribed) := by
  cases d with
  | scalar name description =>
    have hany : isName "any" = true := by decide
    have hline : "export type " ++ name ++ " = any;" = "export type " ++ name ++ " = " ++ "any" ++ ";" := by
      have hend : " = any;" = " = " ++ "any" ++ ";" := rfl
      rw [hend]
      simp only [String.append_assoc]
    rw [Declaration.undescribed, declarationLines, hline]
    exact .type h (isTypeText_name hany) .nil
  | enum name values description =>
    rw [enumLines_undescribed]
    exact .enum h.1 (List.forall_mem_map.mpr h.2) .nil
  | union name types description => exact .type h.1 h.2 .nil
  | entity e =>
    obtain ⟨hflat, hspace, hfields⟩ := h
    have hbody : Statements ((e.space.fields.map (·.undescribed)).flatMap fieldLines) :=
      .flatMap (List.forall_mem_map.mpr fun f hf => statements_fieldLines (hfields f hf))
    rw [Declaration.undescribed, declarationLines, entityLines_undescribed]
    exact (statements_interfaceLines hflat).append (.blank (.space true hspace hbody .nil))

/-! ### Types of a schema -/

theorem isWhole_argumentsInterface {args : List InputField} (h : ∀ a ∈ args, a.Named) :
    (argumentsInterface args).IsWhole := by
  have hname : isName "Arguments" = true := by decide
  refine ⟨hname, List.forall_mem_map.mpr fun a ha => ?_⟩
  exact ⟨(h a ha).1, isTypeText_expression (h a ha).2 true⟩

/-- A field with a name, whose type and arguments have names and types. -/
structure FieldShape.IsWhole (f : FieldShape) : Prop where
  name : isName f.name = true
  type : isName f.type.name = true
  arguments : ∀ i ∈ f.arguments, i.IsWhole

theorem isWhole_shapes {content : TypeContent} (h : content.Named) : ∀ f ∈ content.shapes, f.IsWhole := by
  refine forall_mem_shapes h (fun f hf => ⟨hf.name, hf.type, ?_⟩) fun f hf => ⟨hf.1, hf.2, nofun⟩
  rintro _ ⟨rfl⟩
  exact isWhole_argumentsInterface hf.arguments

theorem isWhole_ofFields {t : NamedType} (ht : isName (camelCase t.name) = true) {fields : List FieldShape}
    (h : ∀ f ∈ fields, f.IsWhole) : (Declaration.entity (.ofFields t fields)).IsWhole := by
  refine ⟨⟨ht, List.forall_mem_map.mpr fun f hf => ?_⟩, ht, List.forall_mem_map.mpr fun f hf => ?_⟩
  · exact ⟨(h f hf).name, isTypeText_dotted ht (h f hf).name⟩
  · exact ⟨(h f hf).name, isTypeText_expression (h f hf).type true, (h f hf).arguments⟩

/-- A type whose declaration has a name and is no empty alias. Scalars, enums and unions are declared under the
names that they have, all others in camel case. -/
structure NamedType.Declarable (t : NamedType) : Prop where
  name : t.content.isEntity = true → keepsStart t.name = true
  members : t.content ≠ .union []

instance (t : NamedType) : Decidable t.Declarable :=
  decidable_of_iff ((t.content.isEntity = true → keepsStart t.name = true) ∧ t.content ≠ .union [])
    ⟨fun h => ⟨h.1, h.2⟩, fun h => ⟨h.1, h.2⟩⟩

/-- The declaration of a declarable type is whole. -/
theorem isWhole_ofType {t : NamedType} (ht : isName t.name = true) (hcontent : t.content.Named) (h : t.Declarable) :
    (Declaration.ofType t).IsWhole := by
  cases hentity : t.content.isEntity with
  | true =>
    rw [ofType_eq_entity hentity]
    exact isWhole_ofFields ((isName_camelCase_iff ht).mpr (h.name hentity)) (isWhole_shapes hcontent)
  | false =>
    obtain ⟨description, name, content⟩ := t
    cases content with
    | scalar => exact ht
    | enum values => exact ⟨ht, hcontent⟩
    | union members =>
      refine ⟨ht, (isTypeText_joinWith_iff ?_).mpr ?_⟩
      · exact List.forall_mem_map.mpr fun m hm => isName_typeName (hcontent m hm)
      · rintro hnil
        rw [List.map_eq_nil_iff] at hnil
        exact h.members (congrArg _ hnil)
    | _ => cases hentity

/-- The declarable types are those whose declarations are complete. -/
theorem isComplete_ofType_iff {t : NamedType} (ht : isName t.name = true) (hcontent : t.content.Named) :
    IsComplete (unlines (declarationLines (.ofType t))) ↔ t.Declarable := by
  have hlines := documents_declarationLines (isCode_ofType ht hcontent)
  constructor
  · intro h
    rw [isComplete_iff hlines] at h
    refine ⟨fun hentity => ?_, fun hunion => ?_⟩
    · rw [ofType_eq_entity hentity, Declaration.undescribed, declarationLines, entityLines_undescribed,
        interfaceLines_undescribed] at h
      exact (isName_camelCase_iff ht).mp h.isName_of_record
    · rw [Declaration.ofType, hunion] at h
      exact not_isTypeText_empty (h.isTypeText_of_type (isNameLike_of_isName ht))
  · intro h
    exact hlines.isComplete (statements_declarationLines (isWhole_ofType ht hcontent h))

/-- The declarations of a schema are whole statements, each of them if and only if camel case leaves a name for the
interface and the namespace of a type with fields, and the union has a member. -/
theorem declarations_complete_iff {sdl : String} {s : Schema} (hs : buildSchema sdl = .ok s) (order : DisplayOrder) :
    List.Forall₂ (fun t d => IsComplete (unlines (declarationLines d)) ↔ t.Declarable)
      (s.inOrder order) (s.declarations order) := by
  rw [Schema.declarations, List.forall₂_map_right_iff, List.forall₂_same]
  intro t ht
  rw [mem_inOrder] at ht
  exact isComplete_ofType_iff (isName_of_mem_types hs ht) (named_of_mem_types hs ht)

/-- An interface that is called `1`. -/
theorem declarations_incomplete_of_digit :
    ∃ s, buildSchema "type Query \x7b a: _1 \x7d type _1 \x7b n: Int \x7d" = .ok s ∧
      (s.declarations .byKind).map (·.name) = ["Query", "1"] ∧
      ∃ d ∈ s.declarations .byKind, d.name = "1" ∧ ¬ IsComplete (unlines (declarationLines d)) := by
  have hrun : ((buildSchema "type Query \x7b a: _1 \x7d type _1 \x7b n: Int \x7d").toOption.map fun s =>
      ((s.declarations .byKind).map (·.name),
        (s.inOrder .byKind).map fun t => ((Declaration.ofType t).name, decide t.Declarable))) =
      some (["Query", "1"], [("Query", true), ("1", false)]) := by
    decide +kernel
  obtain ⟨s, hs, hrun⟩ := Option.map_eq_some_iff.mp hrun
  rw [toOption_eq_some_iff] at hs
  rw [Prod.mk.injEq] at hrun
  have hmem : ("1", false) ∈
      (s.inOrder .byKind).map fun t => ((Declaration.ofType t).name, decide t.Declarable) := by
    simp [hrun.2]
  obtain ⟨t, ht, hname⟩ := List.mem_map.mp hmem
  rw [Prod.mk.injEq, decide_eq_false_iff_not] at hname
  refine ⟨s, hs, hrun.1, .ofType t, List.mem_map.mpr ⟨t, ht, rfl⟩, hname.1, ?_⟩
  rw [mem_inOrder] at ht
  rw [isComplete_ofType_iff (isName_of_mem_types hs ht) (named_of_mem_types hs ht)]
  exact hname.2

/-- Types of every kind, with descriptions, arguments and underscores in front of letters. Of their declarations one
is incomplete, that of a union without members. -/
theorem declarations_complete_of_post :
    let sdl := "type Query \x7b a(x: Int, y: [_1!]): _post \x7d \"a */ b\" type _post \x7b n: [Int!] \x7d " ++
      "input __In \x7b n: Int \x7d union _2 = _post | Query union U scalar _ enum _1 \x7b \"v\" A _0 \x7d"
    ∃ s, buildSchema sdl = .ok s ∧
      (s.declarations .asIs).map (·.name) = ["Query", "Post", "_In", "_2", "U", "_", "_1"] ∧
      ∀ d ∈ s.declarations .asIs, IsComplete (unlines (declarationLines d)) ↔ d.name ≠ "U" := by
  intro sdl
  have hrun : ((buildSchema sdl).toOption.map fun s => ((s.declarations .asIs).map (·.name),
      (s.inOrder .asIs).all fun t => decide (t.Declarable ↔ (Declaration.ofType t).name ≠ "U"))) =
      some (["Query", "Post", "_In", "_2", "U", "_", "_1"], true) := by
    decide +kernel
  obtain ⟨s, hs, hrun⟩ := Option.map_eq_some_iff.mp hrun
  rw [toOption_eq_some_iff] at hs
  rw [Prod.mk.injEq, List.all_eq_true] at hrun
  refine ⟨s, hs, hrun.1, ?_⟩
  have hcomplete := declarations_complete_iff hs .asIs
  rw [Schema.declarations, List.forall₂_map_right_iff, List.forall₂_same] at hcomplete
  refine List.forall_mem_map.mpr fun t ht => ?_
  rw [hcomplete t ht]
  exact of_decide_eq_true (hrun.2 t ht)

end GraphDecl
