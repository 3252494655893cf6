import GraphDecl.Proofs.Imports
import GraphDecl.Proofs.Projection.Levels

/-!
The leaves of a selection. A result field imports the declared types of the leaves at and below it, in the
order of the selections; the types of the fields that go on below do not count.
-/

namespace GraphDecl.Schema

mutual

/-- The named types of the leaves of a selection on a type with the fields `field?`. -/
def leafTypesOn (s : Schema) (field? : String → Option FieldType) : Selection → List String
  | .field _ name _ _ below =>
    if name = typenameField then []
    else match field? name with
      | none => []
      | some type => leafTypesOf s type below
  | .spread .. | .inline .. => []

/-- The leaves of a field of this type: the field itself, or those of what is selected below it. -/
def leafTypesOf (s : Schema) (type : FieldType) : Option (List Selection) → List String
  | none => [type.name]
  | some selections => leafTypesAmong s (s.outputField? type.name) selections

def leafTypesAmong (s : Schema) (field? : String → Option FieldType) : List Selection → List String
  | [] => []
  | x :: xs => leafTypesOn s field? x ++ leafTypesAmong s field? xs

end

theorem leafTypesAmong_eq_flatMap (s : Schema) (field? : String → Option FieldType)
    (xs : List Selection) : s.leafTypesAmong field? xs = xs.flatMap (s.leafTypesOn field?) := by
  induction xs with
  | nil => rfl
  | cons x xs ih => rw [leafTypesAmong, ih, List.flatMap_cons]

theorem importGroups_eq_map (fields : List ResultField) :
    ResultField.importGroups fields = fields.map (·.imports) := by
  induction fields with
  | nil => rfl
  | cons f fs ih => rw [ResultField.importGroups, ih, List.map_cons]

variable {s : Schema} {field? : String → Option FieldType}

/-- What holds of the types of all fields holds of the types of leaves. -/
theorem forall_mem_leafTypesAmong {P : String → Prop}
    (hany : ∀ parent name type, s.anyField? parent name = some type → P type.name)
    (hfields : ∀ name type, field? name = some type → P type.name) (xs : List Selection) :
    ∀ n ∈ s.leafTypesAmong field? xs, P n := by
  induction xs using Selection.listInduction generalizing field? with
  | nil => exact fun n hn => nomatch hn
  | field label name args dirs below xs ihbelow ihxs =>
    rw [leafTypesAmong, List.forall_mem_append, leafTypesOn]
    refine ⟨?_, ihxs hfields⟩
    split
    · exact fun n hn => nomatch hn
    · split
      · exact fun n hn => nomatch hn
      · next type htype =>
        cases below with
        | none => exact List.forall_mem_singleton.mpr (hfields name type htype)
        | some selections =>
          exact ihbelow selections rfl fun _ _ h => hany _ _ _ (anyField?_of_outputField? h)
  | spread fragment dirs xs ih => exact ih hfields
  | inline condition dirs selections xs ihbelow ihxs => exact ihxs hfields

/-- Merging what the fields of a level import gives the list of all leaves of the level. -/
theorem merge_imports_of_forall₂ {xs : List Selection} {fields : List ResultField}
    (h : List.Forall₂ (fun x f => f.imports = Imports.ofUsed (s.leafTypesOn field? x)) xs fields) :
    Imports.merge (fields.map (·.imports)) = Imports.ofUsed (s.leafTypesAmong field? xs) := by
  rw [map_eq_map_of_forall₂ h, Imports.merge_map_ofUsed, leafTypesAmong_eq_flatMap]

/-- Each result field imports the declared types of its leaves. -/
theorem imports_of_resultsOn {xs : List Selection} {fields : List ResultField}
    (h : s.resultsOn field? xs = some fields) :
    List.Forall₂ (fun x f => f.imports = Imports.ofUsed (s.leafTypesOn field? x)) xs fields := by
  induction h using resultsInduction with
  | nil field? => exact .nil
  | field field? label name args dirs below f xs fs h hxs hresult ihbelow ih =>
    refine .cons ?_ ih
    cases hresult with
    | typename => rfl
    | @leaf _ _ _ _ type hne htype =>
      rw [leafTypesOn, if_neg hne, htype]
      exact type.imports_expression true
    | composite hne htype hinside =>
      rw [leafTypesOn, if_neg hne, htype, ResultField.imports, importGroups_eq_map,
        merge_imports_of_forall₂ (ihbelow _ rfl hinside)]
      rfl

/-- At every level of a result, each field lists the declared types of its leaves. -/
theorem listsUsed_levelAt? {xs : List Selection} {fields level : List ResultField} {pos : List Nat}
    (h : s.resultsOn field? xs = some fields) (hlevel : ResultField.levelAt? fields pos = some level) :
    ∃ field?' ys, s.selectedAt? field? xs pos = some (field?', ys) ∧
      List.Forall₂ (fun x f => ListsUsed (s.leafTypesOn field?' x) f.imports) ys level := by
  obtain ⟨field?', ys, hys, hresults⟩ := selectedAt?_of_levelAt? pos h hlevel
  refine ⟨field?', ys, hys, (imports_of_resultsOn hresults).imp ?_⟩
  intro x f hf
  rw [hf]
  exact listsUsed_ofUsed _

end GraphDecl.Schema
