import GraphDecl.Proofs.Document.Places
import GraphDecl.Proofs.Document.SameTokens

/-!
Operations that are read again. The tokens of an operation definition end with a closing brace and are read
to the same definition wherever they stand, but for the places of its arguments and directives.
-/

namespace GraphDecl

namespace Parser

variable {n k : Nat}

/-! ### Values, directives and type references -/

theorem alike_description : Alike none 0 k description description fun about => about := by
  apply alike_peek
  intro t
  split
  · exact (alikeAt_advance_bind rfl (alike_pure rfl)).less (Nat.zero_le 1)
  · exact (alikeAt_advance_bind rfl (alike_pure rfl)).less (Nat.zero_le 1)
  · exact alike_pure rfl t

theorem alike_typeRef (k : Nat) : Alike none 0 k typeRef typeRef fun t => t := by
  refine alike_limited ?_ _ k
  intro _ self hself k
  apply (alike_skip .bracketL).bind
  rintro _ listed rfl
  apply alike_ite
  · apply (hself _).bind
    rintro _ t rfl
    apply ((alike_expect .bracketR).less (Nat.zero_le 1)).bind
    intro _ _ _
    exact (alike_skip .bang).bind_pure fun required _ h => by rw [h]
  · apply (alike_expectName.less (Nat.zero_le 1)).bind
    rintro _ n rfl
    exact (alike_skip .bang).bind_pure fun required _ h => by rw [h]

theorem alike_variableName : Alike none 1 k variableName variableName fun n => n :=
  (alike_expect .dollar).bind fun _ _ _ => alike_expectName.less (Nat.zero_le 1)

theorem exists_error_bind {α β : Type} {p : Parser α} {f : α → Parser β}
    (h : ∀ x ts, ∃ e, f x ts = .error e) (ts : Remaining) : ∃ e, (p >>= f) ts = .error e := by
  show ∃ e, (p ts >>= fun r => f r.1 r.2) = .error e
  cases hp : p ts with
  | error e => exact ⟨e, rfl⟩
  | ok r => exact h r.1 r.2

/-- A variable where there can be none. -/
theorem alike_variable_in_constant {close : Option Punctuator} {q : Parser Value} :
    Alike close n k (do
      let place ← remaining
      advance
      match ← peek with
      | .name n => failAt place (.variableInConstant n)
      | _ => failAt place (.unexpected (.punctuator .dollar))) q fun v => v := by
  refine alike_of_error (exists_error_bind fun place => exists_error_bind fun _ =>
    exists_error_bind fun t => ?_)
  intro ts
  split <;> exact ⟨_, rfl⟩

/-- Values are read alike if the compound ones in them are. -/
theorem alike_valueWith (constant : Bool) {compound : Parser Value}
    (hcompound : ∀ k, Alike none 1 k compound compound fun v => v) (k : Nat) :
    Alike none 1 k (valueWith constant compound) (valueWith constant compound) fun v => v := by
  apply alike_peek
  intro t
  split
  · exact hcompound k _
  · exact hcompound k _
  · refine alike_ite alike_variable_in_constant ?_ _
    exact alike_variableName.bind_pure fun _ _ h => by rw [h]
  all_goals first
    | exact alike_unexpected _
    | exact alikeAt_advance_bind rfl (alike_pure rfl)

def objectEntry (constant : Bool) (compound : Parser Value) : Parser (String × Value) := do
  let n ← expectName
  expect .colon
  return (n, ← valueWith constant compound)

theorem alike_objectEntry (constant : Bool) {compound : Parser Value}
    (hcompound : ∀ k, Alike none 1 k compound compound fun v => v) (k : Nat) :
    Alike none 1 k (objectEntry constant compound) (objectEntry constant compound) fun x => x := by
  apply alike_expectName.bind
  rintro _ n rfl
  apply ((alike_expect .colon).less (Nat.zero_le 1)).bind
  intro _ _ _
  apply ((alike_valueWith constant hcompound _).less (Nat.zero_le 1)).bind_pure
  rintro _ v rfl
  rfl

theorem alike_compoundValue (depth : Nat) (constant : Bool) (k : Nat) :
    Alike none 1 k (compoundValue depth constant) (compoundValue depth constant) fun v => v := by
  refine alike_limited ?_ depth k
  intro _ self hself k
  apply alike_nextIs
  intro listed
  apply alike_ite
  · refine (alike_anyBetween (alike_valueWith constant hself) .bracketL .bracketR k).opened.bind_pure ?_
    intro xs ys h
    rw [List.map_id', List.map_id'] at h
    rw [h]
  · refine (alike_anyBetween (alike_objectEntry constant hself) .braceL .braceR k).opened.bind_pure ?_
    intro xs ys h
    rw [List.map_id', List.map_id'] at h
    rw [h]

theorem alike_value (depth : Nat) (constant : Bool) :
    Alike none 1 k (value depth constant) (value depth constant) fun v => v :=
  alike_valueWith constant (alike_compoundValue depth constant) k

theorem alike_defaultValue : Alike none 0 k defaultValue defaultValue fun v => v := by
  apply (alike_skip .equals).bind
  rintro _ given rfl
  apply alike_ite
  · exact ((alike_value maxDepth true).less (Nat.zero_le 1)).map fun _ _ h => by rw [h]
  · exact alike_pure rfl

theorem alike_argument (depth : Nat) (constant : Bool) (k : Nat) :
    Alike none 1 k (argument depth constant) (argument depth constant) Argument.unplaced := by
  apply alike_expectName.bind
  rintro _ n rfl
  apply ((alike_expect .colon).less (Nat.zero_le 1)).bind
  intro _ _ _
  apply alike_remaining.bind
  intro place place' _
  apply ((alike_value depth constant).less (Nat.zero_le 1)).bind_pure
  rintro _ v rfl
  rfl

theorem alike_arguments (depth : Nat) (constant : Bool) :
    Alike none 0 k (arguments depth constant) (arguments depth constant) (List.map Argument.unplaced) :=
  alike_optionalBetween (alike_argument depth constant) .parenL .parenR k

theorem alike_directives (depth : Nat) (constant : Bool) :
    Alike none 0 k (directives depth constant) (directives depth constant)
      (List.map Directive.unplaced) := by
  refine alike_whileNext ?_ .atSign k
  intro k
  apply alike_remaining.bind_right
  intro place place' _
  apply (alike_expect .atSign).bind
  intro _ _ _
  apply (alike_expectName.less (Nat.zero_le 1)).bind
  rintro _ n rfl
  apply (alike_arguments depth constant).bind_pure
  intro args args' h
  simp only [Directive.unplaced, h]

theorem alike_operationKind : Alike none 0 k operationKind operationKind fun kind => kind := by
  apply alike_remaining.bind
  intro place place' _
  apply (alike_expectName.less (Nat.zero_le 1)).bind
  rintro _ n rfl
  split
  · exact alike_pure rfl
  · exact alike_failAt _ _

/-! ### Selections -/

theorem alike_fragmentName : Alike none 0 k fragmentName fragmentName fun n => n :=
  alike_peek fun t => alike_ite alike_unexpected (alike_expectName.less (Nat.zero_le 1)) t

def fieldRest (depth : Nat) (selections : Parser (List Selection)) (label : Option String) (name : String) :
    Parser Selection := do
  let args ← arguments depth false
  let dirs ← directives depth false
  let below ← if ← nextIs .braceL then some <$> selections else pure none
  return .field label name args dirs below

section

variable {selections : Parser (List Selection)}
  (hselections : ∀ k, Alike (some .braceR) 2 k selections selections (List.map Selection.unplaced))
include hselections

theorem alike_fieldRest (depth k : Nat) (label : Option String) (name : String) :
    Alike none 0 k (fieldRest depth selections label name) (fieldRest depth selections label name)
      Selection.unplaced := by
  apply (alike_arguments depth false).bind
  intro args args' hargs
  apply (alike_directives depth false).bind
  intro dirs dirs' hdirs
  apply alike_nextIs
  intro nested
  apply alike_ite
  · have hbelow (k : Nat) : Alike none 0 k (some <$> selections) (some <$> selections)
        (Option.map Selection.allUnplaced) := by
      apply ((hselections k).opened.less (Nat.zero_le 2)).map
      intro xs ys h
      simp only [Option.map_some, Selection.allUnplaced_eq_map, h]
    apply (hbelow _).bind_pure
    intro below below' h
    rw [Selection.unplaced_field, Selection.unplaced_field, hargs, hdirs, h]
  · apply alike_pure
    rw [Selection.unplaced_field, Selection.unplaced_field, hargs, hdirs]

theorem alike_field (depth k : Nat) :
    Alike none 1 k (field depth selections) (field depth selections) Selection.unplaced := by
  apply alike_expectName.bind
  rintro _ first rfl
  apply (alike_skip .colon).bind
  rintro _ labelled rfl
  apply alike_ite
  · apply (alike_expectName.less (Nat.zero_le 1)).bind
    rintro _ name rfl
    exact alike_fieldRest hselections depth _ _ name
  · exact alike_fieldRest hselections depth _ _ first

theorem alike_spread (depth k : Nat) :
    Alike none 1 k (spread depth selections) (spread depth selections) Selection.unplaced := by
  apply (alike_expect .spread).bind
  intro _ _ _
  apply (alike_skipKeyword "on").bind
  rintro _ conditional rfl
  apply alike_ite
  · apply (alike_expectName.less (Nat.zero_le 1)).bind
    rintro _ condition rfl
    apply (alike_directives depth false).bind
    intro dirs dirs' hdirs
    apply ((hselections _).opened.less (Nat.zero_le 2)).bind_pure
    intro xs ys h
    simp only [Selection.unplaced, Selection.allUnplaced_eq_map, hdirs, h]
  · apply alike_peek
    intro t
    split
    · refine Alike.bind alike_fragmentName ?_ _
      rintro _ n rfl
      apply (alike_directives depth false).bind_pure
      intro dirs dirs' hdirs
      simp only [Selection.unplaced, hdirs]
    · refine Alike.bind (alike_directives depth false) ?_ _
      intro dirs dirs' hdirs
      apply ((hselections _).opened.less (Nat.zero_le 2)).bind_pure
      intro xs ys h
      simp only [Selection.unplaced, Selection.allUnplaced_eq_map, hdirs, h]

end

/-- Selections are read alike from their tokens, up to the places noted for their arguments. -/
theorem alike_selectionSet (k : Nat) :
    Alike (some .braceR) 2 k selectionSet selectionSet (List.map Selection.unplaced) := by
  refine alike_limited ?_ maxDepth k
  intro depth self hself
  apply alike_manyBetween
  intro k
  apply alike_nextIs
  intro spreads
  exact alike_ite (alike_spread hself depth k) (alike_field hself depth k)

/-! ### Operations -/

theorem alike_variableDefinition (k : Nat) :
    Alike none 1 k variableDefinition variableDefinition VariableDefinition.unplaced := by
  apply alike_description.bind_right
  rintro _ about rfl
  apply alike_variableName.bind
  rintro _ n rfl
  apply ((alike_expect .colon).less (Nat.zero_le 1)).bind
  intro _ _ _
  apply (alike_typeRef _).bind
  rintro _ t rfl
  apply alike_defaultValue.bind
  rintro _ d rfl
  apply (alike_directives maxDepth true).bind_pure
  intro dirs dirs' hdirs
  simp only [VariableDefinition.unplaced, hdirs]

def operationRest (about : Option String) (kind : OperationKind) (name : Option String) :
    Parser OperationDefinition := do
  let vars ← optionalBetween .parenL .parenR variableDefinition
  let dirs ← directives maxDepth false
  return ⟨about, kind, name, vars, dirs, ← selectionSet⟩

theorem alike_operationRest (about : Option String) (kind : OperationKind) (name : Option String) (k : Nat) :
    Alike (some .braceR) 2 k (operationRest about kind name) (operationRest about kind name)
      OperationDefinition.unplaced := by
  apply (alike_optionalBetween alike_variableDefinition .parenL .parenR k).bind_right
  intro vars vars' hvars
  apply (alike_directives maxDepth false).bind_right
  intro dirs dirs' hdirs
  apply (alike_selectionSet _).bind_pure
  intro xs ys h
  simp only [OperationDefinition.unplaced, Selection.allUnplaced_eq_map, hvars, hdirs, h]

/-- Operations are read alike from their tokens wherever these stand in a document. -/
theorem alike_operationDefinition (k : Nat) :
    Alike (some .braceR) 2 k operationDefinition operationDefinition OperationDefinition.unplaced := by
  apply alike_nextIs
  intro short
  apply alike_ite
  · apply (alike_selectionSet k).bind_pure
    intro xs ys h
    simp only [OperationDefinition.unplaced, Selection.allUnplaced_eq_map, h]
  · apply alike_description.bind_right
    rintro _ about rfl
    apply alike_operationKind.bind_right
    rintro _ kind rfl
    apply alike_peek
    intro t
    split
    · have hname (k : Nat) : Alike none 0 k (some <$> expectName) (some <$> expectName) fun n => n :=
        (alike_expectName.less (Nat.zero_le 1)).map fun _ _ h => by rw [h]
      refine (hname _).bind_right ?_ _
      rintro _ name rfl
      exact alike_operationRest about kind name _
    · exact alike_operationRest about kind none k t

end Parser

end GraphDecl
