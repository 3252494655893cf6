import GraphDecl.Proofs.Schema.Exports
import GraphDecl.Rendering.OperationsFile

/-!
What stands in the generated namespaces, as trees of declarations. The files print these trees. Inside a
namespace, a name is taken for the type that the namespaces around the place declare under it, and for a type
of the file only if none of them does.
-/

namespace GraphDecl

open Rendering

inductive Decl
  | type (name : String) (expression : TypeExpression) (description : Option String)
  | record (interface : Interface)
  | space (name : String) (body : List Decl)

namespace Decl

mutual

def lines : Decl → List String
  | type name e description =>
    commentLines description ++ ["export type " ++ name ++ " = " ++ e.text ++ ";"]
  | record i => interfaceLines i none
  | space name body => ["export namespace " ++ name ++ " \x7b"] ++ indent 2 (linesOf body) ++ ["\x7d"]

def linesOf : List Decl → List String
  | [] => []
  | d :: ds => d.lines ++ linesOf ds

end

def typeNames (body : List Decl) : List String :=
  body.filterMap fun
    | type name .. => some name
    | record i => some i.name
    | space .. => none

mutual

/-- The declared types that a declaration refers to by a name that is in `scope`, or that a namespace inside
declares around the place. -/
def captured (scope : List String) : Decl → List String
  | type _ e _ => e.imports.filter (· ∈ scope)
  | record i => i.imports.filter (· ∈ scope)
  | space _ body => capturedAmong (scope ++ typeNames body) body

def capturedAmong (scope : List String) : List Decl → List String
  | [] => []
  | d :: ds => d.captured scope ++ capturedAmong scope ds

end

/-- The declared types that a namespace refers to by a name for which it has a type of its own. -/
def capturedIn (body : List Decl) : List String := capturedAmong (typeNames body) body

mutual

/-- No namespace inside declares two types of one name. -/
def Distinct : Decl → Prop
  | type .. | record _ => True
  | space _ body => (typeNames body).Nodup ∧ AllDistinct body

def AllDistinct : List Decl → Prop
  | [] => True
  | d :: ds => d.Distinct ∧ AllDistinct ds

end

theorem linesOf_eq_flatMap (ds : List Decl) : linesOf ds = ds.flatMap (·.lines) := by
  induction ds with
  | nil => rfl
  | cons d ds ih => rw [linesOf, ih, List.flatMap_cons]

@[simp] theorem typeNames_append (ds es : List Decl) : typeNames (ds ++ es) = typeNames ds ++ typeNames es :=
  List.filterMap_append

theorem capturedAmong_eq_flatMap (scope : List String) (ds : List Decl) :
    capturedAmong scope ds = ds.flatMap (·.captured scope) := by
  induction ds with
  | nil => rfl
  | cons d ds ih => rw [capturedAmong, ih, List.flatMap_cons]

@[simp] theorem capturedAmong_append (scope : List String) (ds es : List Decl) :
    capturedAmong scope (ds ++ es) = capturedAmong scope ds ++ capturedAmong scope es := by
  simp [capturedAmong_eq_flatMap]

@[simp] theorem allDistinct_append {ds es : List Decl} :
    AllDistinct (ds ++ es) ↔ AllDistinct ds ∧ AllDistinct es := by
  induction ds with
  | nil => simp [AllDistinct]
  | cons d ds ih => simp [AllDistinct, ih, and_assoc]

end Decl

def EndWithSpace (lines : List String) (name : String) (body : List Decl) : Prop :=
  ∃ before, lines =
    before ++ ["export declare namespace " ++ name ++ " \x7b"] ++ indent 2 (Decl.linesOf body) ++ ["\x7d"]

/-! ### Namespaces of types -/

def TypeContent.shapes : TypeContent → List FieldShape
  | object fields | interface fields => fields.map .ofField
  | inputObject fields => fields.map .ofInputField
  | scalar | union _ | enum _ => []

/-- The alias of a field, behind a namespace for its arguments if it has any. -/
def FieldShape.decls (f : FieldShape) : List Decl :=
  ((f.arguments.toList.filter (!·.members.isEmpty)).map fun i => .space f.name [.record i]) ++
    [.type f.name (f.type.expression true) f.description]

def NamedType.body (t : NamedType) : List Decl := t.content.shapes.flatMap (·.decls)

theorem ofType_eq_entity {t : NamedType} (h : t.content.isEntity = true) :
    Declaration.ofType t = .entity (.ofFields t t.content.shapes) := by
  unfold Declaration.ofType
  cases hcontent : t.content with
  | object fields => rfl
  | interface fields => rfl
  | inputObject fields => rfl
  | _ => rw [hcontent] at h; cases h

theorem typeNames_body (t : NamedType) : Decl.typeNames t.body = t.content.shapes.map (·.name) := by
  rw [NamedType.body]
  induction t.content.shapes with
  | nil => rfl
  | cons f fs ih =>
    have hfield : Decl.typeNames f.decls = [f.name] := by
      simp [FieldShape.decls, Decl.typeNames, List.filterMap_map]
    rw [List.flatMap_cons, Decl.typeNames_append, hfield, ih]
    rfl

theorem aliasLines_eq (f : FieldShape) :
    aliasLines ⟨f.name, (f.type.expression true).text, f.description, f.arguments⟩ =
      indent 2 (Decl.linesOf f.decls) := by
  rw [aliasLines, FieldShape.decls, Decl.linesOf_eq_flatMap]
  cases f.arguments with
  | none => simp [Decl.lines]
  | some i =>
    cases h : i.members.isEmpty <;> simp [Decl.lines, Decl.linesOf, h]

/-- The namespace of a type is printed behind its interface. -/
theorem endWithSpace_declarationLines {t : NamedType} (h : t.content.isEntity = true) :
    EndWithSpace (declarationLines (.ofType t)) (camelCase t.name) t.body := by
  have hbody : (Entity.ofFields t t.content.shapes).space.fields.flatMap aliasLines =
      indent 2 (Decl.linesOf t.body) := by
    simp [NamedType.body, Entity.ofFields, aliasLines_eq, Decl.linesOf_eq_flatMap, indent,
      List.flatMap_map, List.map_flatMap, List.flatMap_assoc]
  refine ⟨interfaceLines (Entity.ofFields t t.content.shapes).flat t.description ++ [""], ?_⟩
  rw [ofType_eq_entity h, declarationLines, entityLines, hbody]
  rfl

/-! ### Namespaces of operations -/

mutual

/-- The alias of a result field, behind a namespace for what is below it. -/
def ResultField.decls : ResultField → List Decl
  | leaf name e => [.type name e none]
  | composite name members type fields =>
    [.space name (declsOf fields), .type name ⟨compositeText members type, []⟩ none]

def ResultField.declsOf : List ResultField → List Decl
  | [] => []
  | f :: fs => f.decls ++ declsOf fs

end

def Operation.body (op : Operation) : List Decl :=
  .record op.space.arguments :: ResultField.declsOf op.space.fields

/-- Induction over lists of result fields, with what is below the first one and what follows it. -/
@[elab_as_elim]
theorem ResultField.listInduction {P : List ResultField → Prop} (nil : P [])
    (leaf : ∀ (name : String) (e : TypeExpression) (fs : List ResultField), P fs → P (.leaf name e :: fs))
    (composite : ∀ (name : String) (members : List Member) (type : FieldType)
      (fields fs : List ResultField), P fields → P fs → P (.composite name members type fields :: fs))
    (fs : List ResultField) : P fs :=
  ResultField.rec_1 (motive_1 := fun f => ∀ fs, P fs → P (f :: fs)) (motive_2 := P)
    (fun name e fs hfs => leaf name e fs hfs)
    (fun name members type fields ih fs hfs => composite name members type fields fs ih hfs)
    nil
    (fun _ fs hf hfs => hf fs hfs)
    fs

theorem typeNames_declsOf (fields : List ResultField) :
    Decl.typeNames (ResultField.declsOf fields) = fields.map (·.name) := by
  induction fields with
  | nil => rfl
  | cons f fs ih =>
    rw [ResultField.declsOf, Decl.typeNames_append, ih]
    cases f <;> rfl

/-- The namespace of an operation declares its arguments and the results at the top. -/
theorem typeNames_operation (op : Operation) :
    Decl.typeNames op.body = op.space.arguments.name :: op.space.fields.map (·.name) := by
  rw [← typeNames_declsOf]
  rfl

/-- The lines of result fields are those of the declarations for them. -/
theorem resultFieldsLines_eq (fields : List ResultField) :
    resultFieldsLines fields = Decl.linesOf (ResultField.declsOf fields) := by
  induction fields using ResultField.listInduction with
  | nil => rfl
  | leaf name e fs ih =>
    rw [resultFieldsLines, ih]
    rfl
  | composite name members type fields fs ihbelow ih =>
    rw [resultFieldsLines, ih, resultFieldLines, ihbelow]
    simp [ResultField.declsOf, ResultField.decls, Decl.linesOf, Decl.lines, commentLines]

/-- The namespace of an operation is printed behind its interface. -/
theorem endWithSpace_operationLines (op : Operation) :
    EndWithSpace (operationLines op) op.space.name op.body := by
  refine ⟨["export const " ++ op.name ++ " = \x60" ++ templateText op.signature ++ "\x60;", ""] ++
    interfaceLines op.selection none ++ [""], ?_⟩
  rw [operationLines, resultFieldsLines_eq]
  rfl

end GraphDecl
