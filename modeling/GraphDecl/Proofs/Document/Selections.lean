import GraphDecl.Proofs.Document.Names

/-!
Selections as trees: a principle of induction that goes through the selections below a field and those
behind it, and the selections that hold fields only.
-/

namespace GraphDecl.Selection

/-- Induction over lists of selections, with what is below the first one and what follows it. -/
@[elab_as_elim]
theorem listInduction {P : List Selection → Prop} (nil : P [])
    (field : ∀ (label : Option String) (name : String) (args : List Argument) (dirs : List Directive)
      (below : Option (List Selection)) (xs : List Selection),
      (∀ selections, below = some selections → P selections) → P xs →
      P (.field label name args dirs below :: xs))
    (spread : ∀ (fragment : String) (dirs : List Directive) (xs : List Selection), P xs →
      P (.spread fragment dirs :: xs))
    (inline : ∀ (condition : Option String) (dirs : List Directive) (selections xs : List Selection),
      P selections → P xs → P (.inline condition dirs selections :: xs))
    (xs : List Selection) : P xs :=
  Selection.rec_2 (motive_1 := fun x => ∀ xs, P xs → P (x :: xs))
    (motive_2 := fun below => ∀ selections, below = some selections → P selections)
    (motive_3 := P)
    (fun label name args dirs below ih xs hxs => field label name args dirs below xs ih hxs)
    (fun fragment dirs xs hxs => spread fragment dirs xs hxs)
    (fun condition dirs selections ih xs hxs => inline condition dirs selections xs ih hxs)
    (fun _ h => nomatch h)
    (fun _ ih _ h => Option.some.inj h ▸ ih)
    nil
    (fun _ xs hx hxs => hx xs hxs)
    xs

mutual

/-- The selection is a field, and so is everything selected below it. -/
def FieldsOnly : Selection → Prop
  | .field _ _ _ _ none => True
  | .field _ _ _ _ (some selections) => AllFieldsOnly selections
  | .spread .. | .inline .. => False

def AllFieldsOnly : List Selection → Prop
  | [] => True
  | x :: xs => x.FieldsOnly ∧ AllFieldsOnly xs

end

/-- Induction over fields: what is selected below a field and what follows it are fields again. -/
@[elab_as_elim]
theorem fieldsInduction {P : (xs : List Selection) → AllFieldsOnly xs → Prop} (nil : P [] trivial)
    (field : ∀ (label : Option String) (name : String) (args : List Argument) (dirs : List Directive)
      (below : Option (List Selection)) (xs : List Selection)
      (only : AllFieldsOnly (.field label name args dirs below :: xs)),
      (∀ selections, below = some selections → ∃ inside, P selections inside) → P xs only.2 →
      P (.field label name args dirs below :: xs) only)
    (xs : List Selection) (only : AllFieldsOnly xs) : P xs only := by
  induction xs using listInduction with
  | nil => exact nil
  | field label name args dirs below xs ihbelow ihxs =>
    refine field label name args dirs below xs only ?_ (ihxs only.2)
    rintro selections rfl
    exact ⟨only.1, ihbelow selections rfl only.1⟩
  | spread fragment dirs xs ih => cases only.1
  | inline condition dirs selections xs ihbelow ihxs => cases only.1

def resultName : Selection → String
  | .field label name .. => label.getD name
  | .spread .. | .inline .. => ""

end GraphDecl.Selection
