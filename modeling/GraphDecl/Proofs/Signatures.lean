import GraphDecl.Proofs.Compilation
import GraphDecl.Proofs.Document.OperationTexts

/-!
Signatures. What an operation compiles to depends on its own text only, so that its signature, compiled as a
document of its own, gives the operation again.
-/

namespace GraphDecl

variable {s : Schema} {text signature : String}

/-! ### Places do not matter -/

theorem selectedNames_allUnplaced (xs : List Selection) :
    selectedNames (Selection.allUnplaced xs) = selectedNames xs := by
  induction xs with
  | nil => rfl
  | cons x xs ih =>
    cases x with
    | field label name args dirs below =>
      rw [Selection.allUnplaced, Selection.unplaced_field, selectedNames, selectedNames, ih]
    | spread fragment dirs => rfl
    | inline condition dirs selections => rfl

/-- Results do not depend on where in the text a selection stands. -/
theorem projectFields_allUnplaced (s : Schema) (root path : String) (xs : List Selection) :
    projectFields s root path (Selection.allUnplaced xs) = projectFields s root path xs := by
  induction xs using Selection.listInduction generalizing path with
  | nil => rfl
  | field label name args dirs below xs ihbelow ihxs =>
    have hfield : projectField s root path (Selection.field label name args dirs below).unplaced =
        projectField s root path (.field label name args dirs below) := by
      rw [Selection.unplaced_field, projectField, projectField]
      cases below with
      | none => rfl
      | some selections =>
        simp only [Option.map_some, selectedNames_allUnplaced, ihbelow selections rfl]
    rw [Selection.allUnplaced, projectFields, projectFields, hfield, ihxs]
  | spread fragment dirs xs ih => rfl
  | inline condition dirs selections xs ihbelow ihxs => rfl

/-- Nor does the declaration for an operation, whose text is given apart. -/
theorem compileDefinition_unplaced (s : Schema) (signature : String) (d : Definition) :
    compileDefinition s signature d.unplaced = compileDefinition s signature d := by
  cases d with
  | operation d =>
    have hvars : variablesInterface (d.variableDefinitions.map VariableDefinition.unplaced) =
        variablesInterface d.variableDefinitions := by
      simp only [variablesInterface, List.map_map]
      rfl
    have hnamed (name : String) :
        compileNamed s name signature d.unplaced = compileNamed s name signature d := by
      simp only [compileNamed, OperationDefinition.unplaced, hvars, project, selectedNames_allUnplaced,
        projectFields_allUnplaced]
    rw [Definition.unplaced, compileDefinition, compileDefinition, show d.unplaced.name = d.name from rfl]
    cases d.name with
    | none => rfl
    | some name => exact hnamed name
  | type d => simp [Definition.unplaced, compileDefinition, Definition.construct, TypeDefinition.unplaced]
  | typeExtension d =>
    simp [Definition.unplaced, compileDefinition, Definition.construct, TypeExtension.unplaced]
  | _ => rfl

/-! ### Documents of operations -/

/-- Passages compile if each of them does, with its own slice of the text. -/
theorem compilePassages_eq_ok_iff {passages : List Passage} {ops : List Operation} :
    compilePassages s text passages = .ok ops ↔
      List.Forall₂ (fun p op => compileDefinition s (slice text p.start p.stop) p.definition = .ok op)
        passages ops := by
  induction passages generalizing ops with
  | nil =>
    rw [List.forall₂_nil_left_iff]
    exact ⟨fun h => (Except.ok.inj h).symm, fun h => congrArg _ h.symm⟩
  | cons p ps ih =>
    rw [List.forall₂_cons_left_iff]
    constructor
    · intro h
      obtain ⟨op, hop, h⟩ := bind_eq_ok_iff.mp h
      obtain ⟨rest, hrest, h⟩ := bind_eq_ok_iff.mp h
      exact ⟨op, rest, hop, ih.mp hrest, (Except.ok.inj h).symm⟩
    · rintro ⟨op, rest, hop, hrest, rfl⟩
      exact bind_eq_ok_iff.mpr ⟨op, hop, bind_eq_ok_iff.mpr ⟨rest, ih.mpr hrest, rfl⟩⟩

/-- What compiles with a signature is an operation that has it. -/
theorem signature_of_compileDefinition {d : Definition} {op : Operation}
    (h : compileDefinition s signature d = .ok op) : op.signature = signature := by
  obtain ⟨o, name, -, -, h⟩ := compileDefinition_eq_ok h
  obtain ⟨root, -, h⟩ := bind_eq_ok_iff.mp h
  obtain ⟨names, -, h⟩ := bind_eq_ok_iff.mp h
  obtain ⟨fields, -, h⟩ := bind_eq_ok_iff.mp h
  cases h
  rfl

/-- The operations are those that the text holds, each compiled with its own text as its signature. -/
def CompilesTo (s : Schema) (text : String) (ops : List Operation) : Prop :=
  ∃ parts, Holds text.toList parts ∧
    List.Forall₂ (fun part op => compileDefinition s part.1 (.operation part.2) = .ok op) parts ops

theorem compileOperations_eq_ok_iff {ops : List Operation} :
    compileOperations s text = .ok ops ↔ ops ≠ [] ∧ CompilesTo s text ops := by
  unfold compileOperations
  constructor
  · intro h
    split at h
    · cases h
    · next passages hparse =>
      have hpassages := compilePassages_eq_ok_iff.mp (mapError_eq_ok_iff.mp h)
      have hops : ∀ p ∈ passages, ∃ d, p.definition = .operation d := by
        have hflip : List.Forall₂ (fun op p =>
            compileDefinition s (slice text p.start p.stop) p.definition = .ok op) ops passages :=
          hpassages.flip
        refine forall_mem_of_forall₂ hflip ?_
        intro op p hop
        obtain ⟨d, name, hd, -⟩ := compileDefinition_eq_ok hop
        exact ⟨d, hd⟩
      obtain ⟨parts, hne, hholds, hsame⟩ := holds_of_parseDocument hparse hops
      have hparts : List.Forall₂ (fun part op => compileDefinition s part.1 part.2 = .ok op)
          (passages.map fun p => (slice text p.start p.stop, p.definition)) ops :=
        List.forall₂_map_left_iff.mpr hpassages
      rw [hsame, List.forall₂_map_left_iff] at hparts
      refine ⟨?_, parts, hholds, hparts⟩
      rintro rfl
      cases hparts
      exact hne rfl
  · rintro ⟨hne, parts, hholds, hparts⟩
    have hne' : parts ≠ [] := by
      rintro rfl
      cases hparts
      exact hne rfl
    obtain ⟨passages, hparse, hsame⟩ := parseDocument_of_holds hholds hne'
    have hpassages : List.Forall₂ (fun part op => compileDefinition s part.1 part.2 = .ok op)
        (parts.map fun part => (part.1, .operation part.2.unplaced)) ops := by
      refine List.forall₂_map_left_iff.mpr (hparts.imp ?_)
      intro part op hop
      rw [← hop]
      exact compileDefinition_unplaced s part.1 (.operation part.2)
    rw [← hsame, List.forall₂_map_left_iff] at hpassages
    simp only [compileDefinition_unplaced] at hpassages
    rw [hparse]
    exact mapError_eq_ok_iff.mpr (compilePassages_eq_ok_iff.mpr hpassages)

/-- What a compilation consists of. -/
theorem compile_eq_ok_iff {order : DisplayOrder} {c : Compilation} :
    compile s order text = .ok c ↔ c.types = s.declarations order ∧ CompilesTo s text c.operations ∧
      c.imports = Imports.merge (c.operations.map (·.imports)) := by
  constructor
  · intro h
    obtain ⟨blank, hblank, h⟩ := bind_eq_ok_iff.mp h
    rw [mapError_eq_ok_iff] at hblank
    cases blank with
    | true =>
      cases h
      exact ⟨rfl, ⟨[], .blank (blank_of_isBlankDocument hblank), .nil⟩, rfl⟩
    | false =>
      obtain ⟨ops, hops, h⟩ := bind_eq_ok_iff.mp h
      cases h
      exact ⟨rfl, (compileOperations_eq_ok_iff.mp hops).2, rfl⟩
  · obtain ⟨types, ops, imports⟩ := c
    rintro ⟨htypes, ⟨parts, hholds, hparts⟩, himports⟩
    dsimp only at htypes hparts himports
    subst htypes himports
    have hblank := isBlankDocument_of_holds hholds
    cases hparts with
    | nil => exact bind_eq_ok_iff.mpr ⟨true, mapError_eq_ok_iff.mpr hblank, rfl⟩
    | @cons part op parts ops hop hrest =>
      have hops : compileOperations s text = .ok (op :: ops) :=
        compileOperations_eq_ok_iff.mpr ⟨nofun, part :: parts, hholds, .cons hop hrest⟩
      exact bind_eq_ok_iff.mpr
        ⟨false, mapError_eq_ok_iff.mpr hblank, bind_eq_ok_iff.mpr ⟨_, hops, rfl⟩⟩

/-! ### Signatures -/

/-- The places of the operations in the text that holds them. -/
theorem exists_places {text : String} {z : List Char} {parts : List (String × OperationDefinition)}
    (h : Holds z parts) {pre : List Char} (htext : text.toList = pre ++ z) :
    ∃ places : List (Nat × Nat), parts.map (·.1) = places.map (fun p => slice text p.1 p.2) ∧
      (∀ p ∈ places, pre.length ≤ p.1 ∧ p.1 < p.2 ∧ p.2 ≤ text.length) ∧
      places.Pairwise fun p q => p.2 ≤ q.1 := by
  induction h generalizing pre with
  | blank hz => exact ⟨[], rfl, by simp, .nil⟩
  | @operation gap w rest ls d ops hgap hw hrest ih =>
    have htext' : text.toList = pre ++ gap ++ (w ++ rest) := by rw [htext, List.append_assoc]
    have hrest' : text.toList = pre ++ gap ++ w ++ rest := by simp [htext]
    obtain ⟨places, hslices, hbounds, hpairs⟩ := ih hrest'
    refine ⟨((pre ++ gap).length, (pre ++ gap).length + w.length) :: places, ?_, ?_, ?_⟩
    · rw [List.map_cons, List.map_cons, slice_eq htext', hslices]
    · have hw : 0 < w.length := List.length_pos_of_ne_nil hw.ne_nil
      have hlength : text.length = pre.length + gap.length + w.length + rest.length := by
        rw [← String.length_toList, htext]
        simp [Nat.add_assoc]
      refine List.forall_mem_cons.mpr ⟨by simp; omega, ?_⟩
      intro p hp
      obtain ⟨hfrom, hbound⟩ := hbounds p hp
      exact ⟨by simp at hfrom; omega, hbound⟩
    · refine .cons ?_ hpairs
      intro p hp
      simpa [Nat.add_assoc] using (hbounds p hp).1

/-- A signature compiles to its operation and nothing else, and the signatures of a document are parts of it
that follow one another. -/
theorem signatures_compile {ops : List Operation} (h : compileOperations s text = .ok ops) :
    (∀ op ∈ ops, compileOperations s op.signature = .ok [op]) ∧
    ∃ places : List (Nat × Nat), ops.map (·.signature) = places.map (fun p => slice text p.1 p.2) ∧
      (∀ p ∈ places, p.1 < p.2 ∧ p.2 ≤ text.length) ∧ places.Pairwise fun p q => p.2 ≤ q.1 := by
  obtain ⟨-, parts, hholds, hparts⟩ := compileOperations_eq_ok_iff.mp h
  have hsame : List.Forall₂ (fun part op => op.signature = part.1 ∧
      compileOperations s op.signature = .ok [op]) parts ops := by
    have hmem := (List.forall₂_and_left parts ops).mpr ⟨fun part hpart => hholds.of_mem hpart, hparts⟩
    refine hmem.imp ?_
    rintro part op ⟨hpart, hop⟩
    have hsignature := signature_of_compileDefinition hop
    rw [hsignature]
    exact ⟨rfl, compileOperations_eq_ok_iff.mpr ⟨nofun, [part], hpart, .cons hop .nil⟩⟩
  constructor
  · exact forall_mem_of_forall₂ hsame fun _ _ h => h.2
  · obtain ⟨places, hslices, hbounds, hpairs⟩ := exists_places hholds (List.nil_append text.toList).symm
    refine ⟨places, ?_, fun p hp => (hbounds p hp).2, hpairs⟩
    rw [← hslices]
    exact map_eq_map_of_forall₂ (hsame.imp fun _ _ h => h.1)

theorem signatures_compile_of_blog :
    let first := "query A \x7b post \x7b title \x7d \x7d"
    let second := "query B($t: Tag = NEW) \x7b post @note(text: \"\"\" a \x7d # \\\"\"\" \"\"\") " ++
      "\x7b tags @note(text: \"é\\u00e9\") \x7d \x7d"
    let text := "# é \x7b\n," ++ first ++ ",# \x7d\n" ++ second ++ " # end"
    ∃ a b, compileOperations Schema.blog text = .ok [a, b] ∧
      a.signature = first ∧ compileOperations Schema.blog first = .ok [a] ∧
      b.signature = second ∧ compileOperations Schema.blog second = .ok [b] := by
  intro first second text
  have hok : (compileOperations Schema.blog text).toOption.map (·.map (·.signature)) =
      some [first, second] := by
    decide +kernel
  obtain ⟨ops, hops, hsignatures⟩ := Option.map_eq_some_iff.mp hok
  have hops := toOption_eq_some_iff.mp hops
  obtain ⟨a, rest, rfl, ha, hrest⟩ := List.map_eq_cons_iff.mp hsignatures
  obtain ⟨b, rfl, hb⟩ := List.map_eq_singleton_iff.mp hrest
  obtain ⟨hcompiles, -⟩ := signatures_compile hops
  refine ⟨a, b, hops, ha, ?_, hb, ?_⟩
  · rw [← ha]
    exact hcompiles a (by simp)
  · rw [← hb]
    exact hcompiles b (by simp)

end GraphDecl
