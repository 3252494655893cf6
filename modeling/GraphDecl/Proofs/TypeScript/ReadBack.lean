import GraphDecl.Proofs.Imports
import GraphDecl.Proofs.Projection.Direct
import GraphDecl.Proofs.TypeScript.Objects

/-!
The texts of type references. A reference is written as the type that it stands for in a schema, and its
text with its import gives it back: the layers in their order, and the named type but for the two scalars
that are written alike.
-/

namespace GraphDecl

open TypeScript

/-! ### References and the types they stand for -/

namespace TypeRef

theorem expression_toFieldType (nullable : Bool) (r : TypeRef) :
    r.toFieldType.expression nullable = r.expression nullable := by
  induction r generalizing nullable with
  | named n bang =>
    cases bang with
    | false => simp [toFieldType, FieldType.expression, expression]
    | true => simp [toFieldType, FieldType.expression, expression]
  | list t bang ih =>
    cases bang with
    | false => simp [toFieldType, FieldType.expression, expression, ih]
    | true => simp [toFieldType, FieldType.expression, expression, ih]

/-- Type references and types of fields are written in the same way. -/
theorem text_expression (nullable : Bool) (r : TypeRef) :
    (r.expression nullable).text = r.toFieldType.wrap nullable (typeName r.name) := by
  rw [← expression_toFieldType, FieldType.text_expression, name_toFieldType]

end TypeRef

theorem Imports.ofUsed_singleton (n : String) :
    ofUsed [n] = if isScalarName n then [] else [n] := by
  cases h : isScalarName n with
  | false => simp [ofUsed, h, firstOccurrences]
  | true => simp [ofUsed, h]

/-- A reference to a type of a schema is written like the type that it stands for, and like the layers of
that type put around the name; it imports the name, unless that is a built-in scalar's. -/
theorem TypeRef.renderings_agree {s : Schema} {r : TypeRef} (h : (s.find? r.name).isSome) :
    ∃ t, s.typeOf? r = some t ∧ ∀ nullable,
      r.expression nullable = t.expression nullable ∧
      t.wrap nullable (typeName r.name) = (r.expression nullable).text ∧
      (r.expression nullable).imports = if isScalarName r.name then [] else [r.name] := by
  obtain ⟨named, hnamed⟩ := Option.isSome_iff_exists.mp h
  have ht : s.typeOf? r = some r.toFieldType := by
    rw [Schema.typeOf?, hnamed, Option.map_some]
  refine ⟨r.toFieldType, ht, ?_⟩
  intro nullable
  refine ⟨(expression_toFieldType nullable r).symm, (text_expression nullable r).symm, ?_⟩
  rw [imports_expression, Imports.ofUsed_singleton]

/-- `[[Tag!]]!` on a schema of posts. -/
theorem TypeRef.renderings_agree_on_tags :
    let r := TypeRef.list (.list (.named "Tag" true) false) true
    (Schema.blog.find? r.name).isSome ∧
    ∃ t, Schema.blog.typeOf? r = some t ∧ ∀ nullable,
      r.expression nullable = t.expression nullable ∧
      t.wrap nullable (typeName r.name) = (r.expression nullable).text ∧
      (r.expression nullable).imports = ["Tag"] := by
  intro r
  have hfind : (Schema.blog.find? r.name).isSome := by decide +kernel
  exact ⟨hfind, renderings_agree hfind⟩

/-! ### Layers -/

/-- What a type is made of around its named type: lists, and values that may be `null`. -/
inductive Layer
  | list | null
  deriving DecidableEq, Repr

/-- The layer of a part that may be `null` if `nullable`. -/
def Layer.nullIf (nullable : Bool) : List Layer := if nullable then [.null] else []

theorem Layer.nullIf_inj {b c : Bool} : nullIf b = nullIf c ↔ b = c := by
  cases b <;> cases c <;> simp [nullIf]

theorem Layer.nullIf_append_list {b c : Bool} {ls ms : List Layer} :
    nullIf b ++ .list :: ls = nullIf c ++ .list :: ms ↔ b = c ∧ ls = ms := by
  cases b <;> cases c <;> simp [nullIf]

def TypeRef.layers : TypeRef → List Layer
  | named _ bang => Layer.nullIf (!bang)
  | list t bang => Layer.nullIf (!bang) ++ .list :: t.layers

def TypeRef.rename (n : String) : TypeRef → TypeRef
  | named _ bang => .named n bang
  | list t bang => .list (t.rename n) bang

theorem TypeRef.layers_rename (n : String) (r : TypeRef) : (r.rename n).layers = r.layers := by
  induction r with
  | named m bang => rfl
  | list t bang ih => simp only [rename, layers, ih]

/-- References have the same layers if they differ in the named type at most. -/
theorem TypeRef.layers_eq_iff {r q : TypeRef} : r.layers = q.layers ↔ q = r.rename q.name := by
  constructor
  · intro h
    induction r generalizing q with
    | named n bang =>
      cases q with
      | named m bang' =>
        rw [Bool.not_inj (Layer.nullIf_inj.mp h)]
        rfl
      | list u bang' => cases bang <;> cases bang' <;> simp [layers, Layer.nullIf] at h
    | list t bang ih =>
      cases q with
      | named m bang' => cases bang <;> cases bang' <;> simp [layers, Layer.nullIf] at h
      | list u bang' =>
        obtain ⟨hmark, hinner⟩ := Layer.nullIf_append_list.mp h
        have hmark : bang = bang' := Bool.not_inj hmark
        subst hmark
        exact congrArg (TypeRef.list · bang) (ih hinner)
  · intro h
    rw [h, layers_rename]

/-- The layers of a type from the outside in, where the outermost one may be `null` if `nullable`. -/
def FieldType.layers (nullable : Bool) : FieldType → List Layer
  | named _ => Layer.nullIf nullable
  | list t => Layer.nullIf nullable ++ .list :: t.layers true
  | nonNull t => t.layers false

theorem TypeRef.layers_toFieldType (r : TypeRef) : r.toFieldType.layers true = r.layers := by
  induction r with
  | named n bang => cases bang <;> rfl
  | list t bang ih => cases bang <;> simp [toFieldType, FieldType.layers, layers, ih]

def Layer.around (l : Layer) (text : String) : String :=
  match l with
  | list => arrayOf text
  | null => orNull text

/-- The text of a type is a matter of its layers alone. -/
theorem wrap_eq_foldr (nullable : Bool) (text : String) (type : FieldType) :
    type.wrap nullable text = (type.layers nullable).foldr Layer.around text := by
  induction type generalizing nullable with
  | named n => cases nullable <;> rfl
  | list element ih => cases nullable <;> simp [FieldType.wrap, FieldType.layers, Layer.nullIf, Layer.around, ih]
  | nonNull inner ih => exact ih false

namespace TypeScript.TypeTree

def layers : TypeTree → List Layer
  | array t => .list :: t.layers
  | either t null => .null :: t.layers
  | _ => []

def core : TypeTree → TypeTree
  | array t => t.core
  | either t null => t.core
  | t => t

def IsCore (t : TypeTree) : Prop := t.layers = [] ∧ t.core = t

theorem layers_orNullIf (nullable : Bool) (t : TypeTree) :
    (t.orNullIf nullable).layers = Layer.nullIf nullable ++ t.layers := by
  cases nullable with
  | false => rfl
  | true => simp [orNullIf, layers, Layer.nullIf]

theorem core_orNullIf (nullable : Bool) (t : TypeTree) : (t.orNullIf nullable).core = t.core := by
  cases nullable with
  | false => rfl
  | true => simp [orNullIf, core]

end TypeScript.TypeTree

/-- The layers and the inside of a type can be read off its tree. -/
theorem layers_tree {t : TypeTree} (h : t.IsCore) (nullable : Bool) (type : FieldType) :
    (type.tree t nullable).layers = type.layers nullable ∧ (type.tree t nullable).core = t := by
  induction type generalizing nullable with
  | named n =>
    rw [FieldType.tree, TypeTree.layers_orNullIf, TypeTree.core_orNullIf, h.1, h.2]
    simp [FieldType.layers]
  | list element ih =>
    obtain ⟨hlayers, hcore⟩ := ih true
    rw [FieldType.tree, TypeTree.layers_orNullIf, TypeTree.core_orNullIf, TypeTree.layers, TypeTree.core,
      hlayers, hcore]
    exact ⟨rfl, rfl⟩
  | nonNull inner ih => exact ih false

/-! ### Names -/

/-- What the name of a type reads as: an atom, or `null` for a type of that name. -/
def nameTree (n : String) : TypeTree := if typeName n = "null" then .null else .name (typeName n)

theorem isCore_nameTree (n : String) : (nameTree n).IsCore := by
  unfold nameTree
  split <;> exact ⟨rfl, rfl⟩

theorem nameTree_eq_iff {n m : String} : nameTree n = nameTree m ↔ typeName n = typeName m := by
  unfold nameTree
  split <;> split <;> simp_all [eq_comm]

theorem reads_nameTree {n : String} (h : isName n = true) :
    Reads .operand (symbols (typeName n)) (nameTree n) := by
  rw [symbols_name (isName_typeName h)]
  refine .word ?_
  rw [wordType?, pieces_name (isName_typeName h)]
  rfl

theorem Scalar.eq_name_of_ofName? {n : String} {a : Scalar} (h : ofName? n = some a) : n = a.name := by
  have hname := List.find?_some h
  exact (beq_iff_eq.mp hname).symm

theorem not_mem_of_ofName?_eq_none {n : String} (h : Scalar.ofName? n = none) : n ∉ ["Int", "Float"] := by
  intro hmem
  have hscalar : n = "Int" ∨ n = "Float" := by simpa using hmem
  rcases hscalar with rfl | rfl <;> cases h

/-- Names that are written alike and imported alike are one name, or those of the two kinds of numbers. -/
theorem typeName_eq_and_imports_eq_iff {n m : String} :
    typeName n = typeName m ∧ Imports.ofUsed [n] = Imports.ofUsed [m] ↔
      n = m ∨ n ∈ ["Int", "Float"] ∧ m ∈ ["Int", "Float"] := by
  rw [Imports.ofUsed_singleton, Imports.ofUsed_singleton]
  unfold typeName isScalarName
  cases hn : Scalar.ofName? n with
  | none =>
    have hcustom : n ∉ ["Int", "Float"] := not_mem_of_ofName?_eq_none hn
    cases hm : Scalar.ofName? m with
    | none => simp [hcustom]
    | some b =>
      have hne : n ≠ m := ne_of_apply_ne Scalar.ofName? (by simp [hn, hm])
      simp [hcustom, hne]
  | some a =>
    have ha : n = a.name := Scalar.eq_name_of_ofName? hn
    cases hm : Scalar.ofName? m with
    | none =>
      have hcustom : m ∉ ["Int", "Float"] := not_mem_of_ofName?_eq_none hm
      have hne : n ≠ m := ne_of_apply_ne Scalar.ofName? (by simp [hn, hm])
      simp [hcustom, hne]
    | some b =>
      have hb : m = b.name := Scalar.eq_name_of_ofName? hm
      subst ha hb
      cases a <;> cases b <;> decide

/-! ### Reading a reference back -/

theorem TypeExpression.ext {e f : TypeExpression} (htext : e.text = f.text) (himports : e.imports = f.imports) :
    e = f := by
  cases e
  cases f
  simp_all

/-- The expression for a reference reads as a type with its layers and its name. -/
theorem TypeRef.exists_reading {r : TypeRef} (h : isName r.name = true) :
    ∃ t, Reads .type (symbols (r.expression true).text) t ∧ t.layers = r.layers ∧
      t.core = nameTree r.name := by
  obtain ⟨hlayers, hcore⟩ := layers_tree (isCore_nameTree r.name) true r.toFieldType
  refine ⟨r.toFieldType.tree (nameTree r.name) true, ?_, ?_, hcore⟩
  · rw [text_expression]
    exact (reads_wrap (reads_nameTree h) true r.toFieldType).1
  · rw [hlayers, layers_toFieldType]

/-- The text of a reference has one reading, with the layers of the reference; and two references have the
same text and the same imports if and only if they have the same layers and the same named type, where the
two kinds of numbers count as one. -/
theorem TypeRef.expression_reads_back {r : TypeRef} (hr : isName r.name = true) :
    (∃ t, Reads .type (symbols (r.expression true).text) t ∧
      (∀ u, Reads .type (symbols (r.expression true).text) u → u = t) ∧
      t.layers = r.layers ∧ t.core = nameTree r.name) ∧
    ∀ q : TypeRef, isName q.name = true →
      (r.expression true = q.expression true ↔
        q = r.rename q.name ∧ (r.name = q.name ∨ r.name ∈ ["Int", "Float"] ∧ q.name ∈ ["Int", "Float"])) := by
  obtain ⟨t, ht, hlayers, hcore⟩ := exists_reading hr
  refine ⟨⟨t, ht, fun u hu => hu.unique ht, hlayers, hcore⟩, ?_⟩
  intro q hq
  rw [← layers_eq_iff, ← typeName_eq_and_imports_eq_iff, ← imports_expression true r, ← imports_expression true q]
  constructor
  · intro h
    obtain ⟨u, hu, hlayers', hcore'⟩ := exists_reading hq
    rw [h] at ht
    have htree : t = u := ht.unique hu
    subst htree
    refine ⟨hlayers.symm.trans hlayers', ?_, congrArg TypeExpression.imports h⟩
    exact nameTree_eq_iff.mp (hcore.symm.trans hcore')
  · rintro ⟨hsame, hname, himports⟩
    have htext : (r.expression true).text = (q.expression true).text := by
      rw [text_expression, text_expression, hname]
      rw [wrap_eq_foldr, wrap_eq_foldr, layers_toFieldType, layers_toFieldType, hsame]
    exact TypeExpression.ext htext himports

/-- `[[Int]!]` is written like `[[Float]!]`. -/
theorem TypeRef.expression_reads_back_of_numbers :
    let r := TypeRef.list (.list (.named "Int" false) true) false
    let q := TypeRef.list (.list (.named "Float" false) true) false
    isName r.name = true ∧ isName q.name = true ∧
    (∃ t, Reads .type (symbols "((number | null)[])[] | null") t ∧
      t.layers = [.null, .list, .list, .null] ∧ t.core = .name "number") ∧
    r.expression true = q.expression true := by
  intro r q
  have hr : isName r.name = true := by decide
  have hq : isName q.name = true := by decide
  obtain ⟨⟨t, ht, -, hlayers, hcore⟩, hsame⟩ := expression_reads_back hr
  have htext : (r.expression true).text = "((number | null)[])[] | null" := by decide +kernel
  have hatom : nameTree r.name = .name "number" := by
    rw [nameTree, if_neg (by decide)]
    rfl
  rw [htext] at ht
  exact ⟨hr, hq, ⟨t, ht, hlayers, hcore.trans hatom⟩, (hsame q hq).mpr ⟨rfl, .inr (by decide)⟩⟩

end GraphDecl
