import GraphDecl.Proofs.Rendering.Comments

/-!
Descriptions of a schema. They may be any text, and none of it becomes code: apart from comments, the file for a
schema is the one for the same declarations without descriptions.
-/

namespace GraphDecl

open Rendering

/-! ### Declarations without descriptions -/

def Member.undescribed (m : Member) : Member := { m with description := none }

def Interface.undescribed (i : Interface) : Interface :=
  { i with members := i.members.map (·.undescribed), description := none }

def FieldAlias.undescribed (f : FieldAlias) : FieldAlias :=
  { f with description := none, arguments := f.arguments.map (·.undescribed) }

def Entity.undescribed (e : Entity) : Entity :=
  { e with
    flat := e.flat.undescribed
    space := { e.space with fields := e.space.fields.map (·.undescribed), description := none } }

/-- The declaration with no description at any place. -/
def Declaration.undescribed : Declaration → Declaration
  | scalar name _ => .scalar name none
  | enum name values _ => .enum name (values.map fun v => { v with description := none }) none
  | union name types _ => .union name types none
  | entity e => .entity e.undescribed

/-! ### Declarations in code -/

structure FieldAlias.IsCode (f : FieldAlias) : Prop where
  name : isCode f.name = true
  type : isCode f.type = true
  arguments : ∀ i ∈ f.arguments, i.IsCode

/-- The names and types of a declaration are code. -/
def Declaration.IsCode : Declaration → Prop
  | scalar name _ => isCode name = true
  | enum name values _ => isCode name = true ∧ ∀ v ∈ values, isCode v.name = true
  | union name types _ => isCode name = true ∧ ∀ t ∈ types, isCode t = true
  | entity e => e.flat.IsCode ∧ isCode e.space.name = true ∧ ∀ f ∈ e.space.fields, f.IsCode

theorem documents_memberLines {m : Member} (h : m.IsCode) :
    Documents (memberLines m) (memberLines m.undescribed) := by
  have hline : isCode (m.name ++ ": " ++ m.type ++ ";") = true := by
    simp +decide [isCode_append, isCode_of_isNameLike h.name, h.type]
  exact (Documents.described m.description (.line hline .nil)).indent 2

/-- The lines of an interface are those of it without descriptions, and comments. -/
theorem documents_interfaceLines {i : Interface} (h : i.IsCode) (description : Option String) :
    Documents (interfaceLines i description) (interfaceLines i.undescribed none) := by
  have hopen : isCode ("export interface " ++ i.name ++ " \x7b") = true := by
    simp +decide [isCode_append, isCode_of_isNameLike h.name]
  have hmembers : Documents (i.members.flatMap memberLines) (i.undescribed.members.flatMap memberLines) := by
    rw [Interface.undescribed, List.flatMap_map]
    exact .flatMap fun m hm => documents_memberLines (h.members m hm)
  have hlines := Documents.described description (.line hopen (hmembers.append (.line (l := "\x7d") rfl .nil)))
  simpa [interfaceLines, commentLines, Interface.undescribed] using hlines

def argumentLines (name : String) : Option Interface → List String
  | some i =>
    if i.members.isEmpty then []
    else ["export namespace " ++ name ++ " \x7b"] ++ indent 2 (interfaceLines i none) ++ ["\x7d"]
  | none => []

theorem aliasLines_eq_indent (f : FieldAlias) : aliasLines f = indent 2 (argumentLines f.name f.arguments ++
    (commentLines f.description ++ ["export type " ++ f.name ++ " = " ++ f.type ++ ";"])) := by
  rw [← List.append_assoc]
  rfl

theorem documents_argumentLines {name : String} (hname : isCode name = true) {arguments : Option Interface}
    (h : ∀ i ∈ arguments, i.IsCode) :
    Documents (argumentLines name arguments) (argumentLines name (arguments.map (·.undescribed))) := by
  cases arguments with
  | none => exact .nil
  | some i =>
    have hopen : isCode ("export namespace " ++ name ++ " \x7b") = true := by
      simp +decide [isCode_append, hname]
    have hmembers : i.undescribed.members.isEmpty = i.members.isEmpty := by
      simp [Interface.undescribed]
    rw [Option.map_some, argumentLines, argumentLines, hmembers]
    split
    · exact .nil
    · exact .line hopen (((documents_interfaceLines (h i rfl) none).indent 2).append (.line rfl .nil))

/-- So are the lines of the alias of a field. -/
theorem documents_aliasLines {f : FieldAlias} (h : f.IsCode) :
    Documents (aliasLines f) (aliasLines f.undescribed) := by
  have hline : isCode ("export type " ++ f.name ++ " = " ++ f.type ++ ";") = true := by
    simp +decide [isCode_append, h.name, h.type]
  rw [aliasLines_eq_indent, aliasLines_eq_indent]
  exact ((documents_argumentLines h.name h.arguments).append
    (.described f.description (.line hline .nil))).indent 2

theorem documents_enumValueLines {v : EnumValue} (h : isCode v.name = true) :
    Documents (enumValueLines v) (enumValueLines { v with description := none }) := by
  have hline : isCode (v.name ++ " = '" ++ v.name ++ "',") = true := by
    simp +decide [isCode_append, h]
  exact (Documents.described v.description (.line hline .nil)).indent 2

/-- The lines of a declaration are those without descriptions, with comments put in. -/
theorem documents_declarationLines {d : Declaration} (h : d.IsCode) :
    Documents (declarationLines d) (declarationLines d.undescribed) := by
  cases d with
  | scalar name description =>
    have hname : isCode name = true := h
    have hline : isCode ("export type " ++ name ++ " = any;") = true := by
      simp +decide [isCode_append, hname]
    exact .described description (.line hline .nil)
  | enum name values description =>
    obtain ⟨hname, hvalues⟩ := h
    have hopen : isCode ("export enum " ++ name ++ " \x7b") = true := by
      simp +decide [isCode_append, hname]
    have hlines : Documents (values.flatMap enumValueLines)
        ((values.map fun v => { v with description := none }).flatMap enumValueLines) := by
      rw [List.flatMap_map]
      exact .flatMap fun v hv => documents_enumValueLines (hvalues v hv)
    have henum := Documents.described description (.line hopen (hlines.append (.line (l := "\x7d") rfl .nil)))
    simpa [declarationLines, Declaration.undescribed, commentLines] using henum
  | union name types description =>
    obtain ⟨hname, htypes⟩ := h
    have hglue : isCode " | " = true := by decide
    have hline : isCode ("export type " ++ name ++ " = " ++ Text.joinWith " | " types ++ ";") = true := by
      simp +decide [isCode_append, hname, isCode_joinWith hglue htypes]
    exact .described description (.line hline .nil)
  | entity e =>
    obtain ⟨hflat, hspace, hfields⟩ := h
    have hopen : isCode ("export declare namespace " ++ e.space.name ++ " \x7b") = true := by
      simp +decide [isCode_append, hspace]
    have hlines : Documents (e.space.fields.flatMap aliasLines)
        ((e.space.fields.map (·.undescribed)).flatMap aliasLines) := by
      rw [List.flatMap_map]
      exact .flatMap fun f hf => documents_aliasLines (hfields f hf)
    have hspace := Documents.line (l := "") rfl
      (.line hopen (hlines.append (.line (l := "\x7d") rfl .nil)))
    have hentity := (documents_interfaceLines hflat e.space.description).append hspace
    simpa [declarationLines, entityLines, Declaration.undescribed, Entity.undescribed] using hentity

/-! ### Types of a schema -/

theorem isCode_argumentsInterface {args : List InputField} (h : ∀ a ∈ args, a.Named) :
    (argumentsInterface args).IsCode := by
  have hname : isNameLike "Arguments" = true := by decide
  refine ⟨hname, List.forall_mem_map.mpr fun a ha => ?_⟩
  obtain ⟨hargument, htype⟩ := h a ha
  exact ⟨isNameLike_of_isName hargument, FieldType.isCode_expression htype true⟩

/-- A field with a name, whose type and arguments have names. -/
structure FieldShape.Named (f : FieldShape) : Prop where
  name : isName f.name = true
  type : isName f.type.name = true
  arguments : ∀ i ∈ f.arguments, i.IsCode

/-- What is declared for a type with fields is code, if its fields have names. -/
theorem isCode_ofFields {t : NamedType} (ht : isName t.name = true) {fields : List FieldShape}
    (h : ∀ f ∈ fields, f.Named) : (Declaration.entity (.ofFields t fields)).IsCode := by
  have hname := isNameLike_camelCase (isNameLike_of_isName ht)
  refine ⟨⟨hname, List.forall_mem_map.mpr fun f hf => ?_⟩, isCode_of_isNameLike hname,
    List.forall_mem_map.mpr fun f hf => ?_⟩
  · have hfield := isNameLike_of_isName (h f hf).name
    exact ⟨hfield, isCode_dotted (isCode_of_isNameLike hname) (isCode_of_isNameLike hfield)⟩
  · exact ⟨isCode_of_isName (h f hf).name, FieldType.isCode_expression (h f hf).type true,
      (h f hf).arguments⟩

/-- The fields of a type come from fields of either kind, all of them with names. -/
theorem forall_mem_shapes {content : TypeContent} (h : content.Named) {P : FieldShape → Prop}
    (houtput : ∀ f : Field, f.Named → P (.ofField f)) (hinput : ∀ f : InputField, f.Named → P (.ofInputField f)) :
    ∀ f ∈ content.shapes, P f := by
  cases content with
  | object fields => exact List.forall_mem_map.mpr fun f hf => houtput f (h f hf)
  | interface fields => exact List.forall_mem_map.mpr fun f hf => houtput f (h f hf)
  | inputObject fields => exact List.forall_mem_map.mpr fun f hf => hinput f (h f hf)
  | _ => exact fun f hf => nomatch hf

theorem named_shapes {content : TypeContent} (h : content.Named) : ∀ f ∈ content.shapes, f.Named := by
  refine forall_mem_shapes h (fun f hf => ⟨hf.name, hf.type, ?_⟩) fun f hf => ⟨hf.1, hf.2, nofun⟩
  rintro _ ⟨rfl⟩
  exact isCode_argumentsInterface hf.arguments

/-- The declaration of a type of a schema is code. -/
theorem isCode_ofType {t : NamedType} (ht : isName t.name = true) (hcontent : t.content.Named) :
    (Declaration.ofType t).IsCode := by
  cases hentity : t.content.isEntity with
  | true =>
    rw [ofType_eq_entity hentity]
    exact isCode_ofFields ht (named_shapes hcontent)
  | false =>
    obtain ⟨description, name, content⟩ := t
    cases content with
    | scalar => exact isCode_of_isName ht
    | union members =>
      exact ⟨isCode_of_isName ht,
        List.forall_mem_map.mpr fun m hm => isCode_of_isName (isName_typeName (hcontent m hm))⟩
    | enum values => exact ⟨isCode_of_isName ht, fun v hv => isCode_of_isName (hcontent v hv)⟩
    | _ => cases hentity

/-- All declarations for an accepted schema are code but for their descriptions. -/
theorem isCode_of_mem_types {sdl text : String} {s : Schema} {order : DisplayOrder} {c : Compilation}
    (hs : buildSchema sdl = .ok s) (hc : compile s order text = .ok c) : ∀ d ∈ c.types, d.IsCode := by
  intro d hd
  rw [(compile_eq_ok hc).1] at hd
  obtain ⟨t, ht, rfl⟩ := List.mem_map.mp hd
  have ht := mem_inOrder.mp ht
  exact isCode_ofType (isName_of_mem_types hs ht) (named_of_mem_types hs ht)

/-- Descriptions may be any text, with ends of comments, line breaks of every kind or nothing but blanks: the
text of a schema file without its comment blocks is the text of the declarations without descriptions. -/
theorem schemaFile_withoutComments {sdl text : String} {s : Schema} {order : DisplayOrder} {c : Compilation}
    (hs : buildSchema sdl = .ok s) (hc : compile s order text = .ok c) :
    withoutComments (schemaFile c.types none).toList =
      (schemaFile (c.types.map (·.undescribed)) none).toList := by
  have hlines : Documents (paragraphs (c.types.map declarationLines))
      (paragraphs (c.types.map fun d => declarationLines d.undescribed)) :=
    .paragraphs fun d hd => documents_declarationLines (isCode_of_mem_types hs hc d hd)
  have hfile (types : List Declaration) :
      schemaFile types none = unlines (paragraphs (types.map declarationLines)) := by
    rw [schemaFile, headerText, String.empty_append]
  rw [hfile, hfile, hlines.withoutComments_unlines, List.map_map]
  rfl

/-- Descriptions of a type, a field, an argument and an enum value that would end their comments, and one of
blanks. -/
theorem schemaFile_withoutComments_of_closing :
    let sdl := "\"*/ export type Query = 1; /**\" type Query \x7b \"a\\u2028*/ b\" a(\"  \" x: Int \"**/\\n/**\" y: Tag): Tag \x7d \"end\\r*/\" enum Tag \x7b \"*/ OLD,\" NEW \x7d"
    ∃ s c, buildSchema sdl = .ok s ∧ compile s .byKind "" = .ok c ∧
      (c.types.filterMap (·.description)) = ["end\r*/", "*/ export type Query = 1; /**"] ∧
      withoutComments (schemaFile c.types none).toList =
        (unlines ["export enum Tag \x7b", "  NEW = 'NEW',", "\x7d", "", "export interface Query \x7b",
          "  a: Query.a;", "\x7d", "", "export declare namespace Query \x7b", "  export namespace a \x7b",
          "    export interface Arguments \x7b", "      x: number | null;", "      y: Tag | null;", "    \x7d",
          "  \x7d", "  export type a = Tag | null;", "\x7d"]).toList := by
  intro sdl
  have hrun : ((buildSchema sdl).toOption.bind fun s => (compile s .byKind "").toOption.map fun c =>
      (c.types.filterMap (·.description), schemaFile (c.types.map (·.undescribed)) none)) =
      some (["end\r*/", "*/ export type Query = 1; /**"],
        unlines ["export enum Tag \x7b", "  NEW = 'NEW',", "\x7d", "", "export interface Query \x7b",
          "  a: Query.a;", "\x7d", "", "export declare namespace Query \x7b", "  export namespace a \x7b",
          "    export interface Arguments \x7b", "      x: number | null;", "      y: Tag | null;", "    \x7d",
          "  \x7d", "  export type a = Tag | null;", "\x7d"]) := by
    decide +kernel
  obtain ⟨s, hs, hrun⟩ := Option.bind_eq_some_iff.mp hrun
  obtain ⟨c, hc, hrun⟩ := Option.map_eq_some_iff.mp hrun
  rw [toOption_eq_some_iff] at hs hc
  rw [Prod.mk.injEq] at hrun
  refine ⟨s, c, hs, hc, hrun.1, ?_⟩
  rw [schemaFile_withoutComments hs hc, hrun.2]

end GraphDecl
