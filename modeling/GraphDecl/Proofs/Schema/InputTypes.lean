import Mathlib.Data.Finset.Card
import GraphDecl.Proofs.Schema.Resolving

/-!
Input types that settle. The fields of an input type are the same whether anything is kept or not, and whatever
has been resolved before: default values that do not need one another lead through each type once at most.
-/

namespace GraphDecl.Resolution

abbrev Anything : Known → Prop := fun _ => True

variable {types types' : List DeclaredType}

/-! ### Without what is kept -/

def plainShapes (types : List DeclaredType) : Nat → String → Resolving (List InputShape)
  | 0, _ => throw .endless
  | depth + 1, name =>
    inFieldsOf name
      ((inputFieldsOf types name).mapM (inputShape types (plainShapes types depth) .inputFieldType))

theorem follows_plainShapes_succ (types : List DeclaredType) (depth : Nat) (n : String) :
    Follows Anything Anything (plainShapes types depth n) (plainShapes types (depth + 1) n) := by
  induction depth generalizing n with
  | zero => exact follows_throw _ _
  | succ depth ih => exact follows_inputFields (.refl types) ih n

theorem follows_plainShapes_self (types : List DeclaredType) (depth : Nat) (n : String) :
    Follows Anything Anything (plainShapes types depth n) (plainShapes types depth n) := by
  induction depth generalizing n with
  | zero => exact follows_throw _ _
  | succ depth ih => exact follows_inputFields (.refl types) ih n

theorem Follows.trans_anything {α : Type} {m m' m'' : Resolving α} {I K : Known → Prop}
    (h : Follows I Anything m m') (h' : Follows Anything K m' m'') : Follows I K m m'' :=
  h.trans h' (show Anything [] from trivial)

/-- What is resolved with something known is resolved with anything else known. -/
theorem Follows.exists_ok {α : Type} {m m' : Resolving α} (h : Follows Anything Anything m m') (other : Known)
    {known known' : Known} {x : α} (hx : m known = .ok (x, known')) :
    ∃ other', m' other = .ok (x, other') := by
  obtain ⟨-, other', hx', -⟩ := h trivial (show Anything other from trivial) hx
  exact ⟨other', hx'⟩

/-- More levels give no other fields. -/
theorem follows_plainShapes_of_le (types : List DeclaredType) {depth depth' : Nat} (h : depth ≤ depth')
    (n : String) :
    Follows Anything Anything (plainShapes types depth n) (plainShapes types depth' n) := by
  induction h with
  | refl => exact follows_plainShapes_self types depth n
  | step _ ih => exact ih.trans_anything (follows_plainShapes_succ types _ n)

/-! ### Levels that are enough -/

/-- The fields of the type are found within so many levels. -/
def settles (types : List DeclaredType) (depth : Nat) (n : String) : Bool := (plainShapes types depth n []).isOk

theorem settles_iff {depth : Nat} {n : String} :
    settles types depth n = true ↔ ∃ shapes known, plainShapes types depth n [] = .ok (shapes, known) := by
  rw [settles]
  cases plainShapes types depth n [] with
  | error e => simp [Except.isOk, Except.toBool]
  | ok r => simpa [Except.isOk, Except.toBool] using ⟨r.1, r.2, rfl⟩

theorem settles_mono {depth depth' : Nat} (h : depth ≤ depth') {n : String}
    (hn : settles types depth n = true) : settles types depth' n = true := by
  obtain ⟨shapes, known, hshapes⟩ := settles_iff.mp hn
  obtain ⟨known', hshapes'⟩ := (follows_plainShapes_of_le types h n).exists_ok [] hshapes
  exact settles_iff.mpr ⟨shapes, known', hshapes'⟩

/-- If fewer levels are enough, they give the same fields. -/
theorem follows_plainShapes_of_settles {depth depth' : Nat} (h : depth ≤ depth') {n : String}
    (hn : settles types depth' n = true → settles types depth n = true) :
    Follows Anything Anything (plainShapes types depth' n) (plainShapes types depth n) := by
  intro known other shapes known' _ _ hshapes
  obtain ⟨_, hhere⟩ := (follows_plainShapes_self types depth' n).exists_ok [] hshapes
  obtain ⟨shapes', _, hless⟩ := settles_iff.mp (hn (settles_iff.mpr ⟨shapes, _, hhere⟩))
  obtain ⟨_, hmore⟩ := (follows_plainShapes_of_le types h n).exists_ok [] hless
  obtain ⟨rfl, -⟩ := Prod.mk.inj (Except.ok.inj (hhere.symm.trans hmore))
  exact ⟨trivial, (follows_plainShapes_self types depth n trivial trivial hless).2⟩

/-- A name that is not declared has no fields, so that one level is enough. -/
theorem settles_of_not_declared {n : String} (h : n ∉ types.map (·.name)) (depth : Nat) :
    settles types (depth + 1) n = true := by
  have hfind : types.find? (·.name == n) = none := by
    rw [List.find?_eq_none]
    rintro t ht hname
    exact h (List.mem_map.mpr ⟨t, ht, by simpa using hname⟩)
  have hfields : inputFieldsOf types n = [] := by
    rw [inputFieldsOf, partsOf, hfind]
    rfl
  rw [settles, plainShapes, hfields]
  rfl

/-- Among growing sets of names from a list, one does not grow. -/
theorem exists_le_length_stable (names : List String) (p : Nat → String → Bool)
    (hmono : ∀ k n, p k n = true → p (k + 1) n = true) :
    ∃ k ≤ names.length, ∀ n ∈ names, p (k + 1) n = true → p k n = true := by
  by_contra hgrow
  push Not at hgrow
  have hcard : ∀ k ≤ names.length + 1, k ≤ (names.toFinset.filter (p k ·)).card := by
    intro k hk
    induction k with
    | zero => exact Nat.zero_le _
    | succ k ih =>
      obtain ⟨n, hn, hnew, hold⟩ := hgrow k (by omega)
      have hsub : names.toFinset.filter (p k ·) ⊂ names.toFinset.filter (p (k + 1) ·) := by
        refine ⟨Finset.monotone_filter_right _ fun n _ => hmono k n, fun hle => hold ?_⟩
        exact (Finset.mem_filter.mp (hle (Finset.mem_filter.mpr ⟨List.mem_toFinset.mpr hn, hnew⟩))).2
      exact Nat.lt_of_le_of_lt (ih (by omega)) (Finset.card_lt_card hsub)
  have hall := hcard (names.length + 1) (Nat.le_refl _)
  have hbound := (Finset.card_filter_le names.toFinset (p (names.length + 1) ·)).trans names.toFinset_card_le
  omega

/-- As many levels as there are types are enough, and one more. -/
theorem follows_plainShapes_length (types : List DeclaredType) (depth : Nat) (n : String) :
    Follows Anything Anything (plainShapes types depth n) (plainShapes types (types.length + 1) n) := by
  obtain ⟨k, hk, hstable⟩ := exists_le_length_stable (types.map (·.name)) (fun k => settles types (k + 1))
    fun k n hn => settles_mono (Nat.le_succ _) hn
  rw [List.length_map] at hk
  have hstep (n : String) :
      Follows Anything Anything (plainShapes types (k + 2) n) (plainShapes types (k + 1) n) := by
    refine follows_plainShapes_of_settles (Nat.le_succ _) fun hn => ?_
    by_cases hdeclared : n ∈ types.map (·.name)
    · exact hstable n hdeclared hn
    · exact settles_of_not_declared hdeclared k
  -- a level that adds nothing is followed by levels that add nothing
  have hsteps (j : Nat) (n : String) :
      Follows Anything Anything (plainShapes types (k + 2 + j) n) (plainShapes types (k + 1 + j) n) := by
    induction j generalizing n with
    | zero => exact hstep n
    | succ j ih => exact follows_inputFields (.refl types) ih n
  have hback (j : Nat) (n : String) :
      Follows Anything Anything (plainShapes types (k + 1 + j) n) (plainShapes types (k + 1) n) := by
    induction j with
    | zero => exact follows_plainShapes_self types (k + 1) n
    | succ j ih => exact (show k + 1 + (j + 1) = k + 2 + j by omega) ▸ (hsteps j n).trans_anything ih
  have hdepth := follows_plainShapes_of_le types (show depth ≤ k + 1 + depth by omega) n
  refine (hdepth.trans_anything (hback depth n)).trans_anything ?_
  exact follows_plainShapes_of_le types (by omega) n

/-! ### With what is kept -/

def settled (types : List DeclaredType) : String → Resolving (List InputShape) :=
  plainShapes types (types.length + 1)

def Consistent (types : List DeclaredType) (known : Known) : Prop :=
  ∀ n shapes, known.lookup n = some shapes → ∃ known', settled types n [] = .ok (shapes, known')

theorem consistent_nil (types : List DeclaredType) : Consistent types [] := nofun

theorem Consistent.cons {known known' : Known} (h : Consistent types known) {name : String}
    {shapes : List InputShape} (hshapes : settled types name [] = .ok (shapes, known')) :
    Consistent types ((name, shapes) :: known) := by
  intro n shapes' hn
  rw [List.lookup_cons] at hn
  cases hname : n == name with
  | true =>
    rw [hname] at hn
    obtain rfl := beq_iff_eq.mp hname
    obtain rfl := Option.some.inj hn
    exact ⟨known', hshapes⟩
  | false =>
    rw [hname] at hn
    exact h n shapes' hn

theorem get_bind_apply {α : Type} (f : Known → Resolving α) (known : Known) :
    (get >>= f : Resolving α) known = f known known := rfl

theorem inputShapes_of_lookup {depth : Nat} {name : String} {known : Known} {shapes : List InputShape}
    (h : known.lookup name = some shapes) : inputShapes types (depth + 1) name known = .ok (shapes, known) := by
  rw [inputShapes, get_bind_apply]
  simp only [h]
  rfl

/-- Fields that are not kept are resolved, and kept then. -/
theorem inputShapes_of_lookup_eq_none {depth : Nat} {name : String} {known : Known}
    (h : known.lookup name = none) :
    inputShapes types (depth + 1) name known =
      (do
        let shapes ← inFieldsOf name ((inputFieldsOf types name).mapM
          (inputShape types (inputShapes types depth) .inputFieldType))
        modify ((name, shapes) :: ·)
        return shapes : Resolving (List InputShape)) known := by
  rw [inputShapes, get_bind_apply]
  simp only [h]
  rfl

theorem settled_inj {n : String} {known known' : Known} {shapes shapes' : List InputShape}
    (h : settled types n [] = .ok (shapes, known)) (h' : settled types n [] = .ok (shapes', known')) :
    shapes = shapes' :=
  (Prod.mk.inj (Except.ok.inj (h.symm.trans h'))).1

/-- What is resolved with what is kept is right. -/
theorem inputShapes_follows_settled (depth : Nat) (n : String) :
    Follows (Consistent types) Anything (inputShapes types depth n) (settled types n) := by
  induction depth generalizing n with
  | zero => exact follows_throw _ _
  | succ depth ih =>
    intro known other shapes known' hknown _ h
    cases hlookup : known.lookup n with
    | some kept =>
      rw [inputShapes_of_lookup hlookup] at h
      cases h
      obtain ⟨_, hsettled⟩ := hknown n shapes hlookup
      exact ⟨hknown, (follows_plainShapes_self types _ n trivial trivial hsettled).2⟩
    | none =>
      rw [inputShapes_of_lookup_eq_none hlookup] at h
      obtain ⟨⟨found, between⟩, hfields, hrest⟩ := bind_eq_ok_iff.mp h
      cases hrest
      have hfollows := (follows_inputFields (.refl types) ih n).trans_anything
        (follows_plainShapes_length types (types.length + 2) n)
      obtain ⟨hbetween, other', hother, -⟩ := hfollows hknown (show Anything other from trivial) hfields
      obtain ⟨-, _, hsettled, -⟩ := hfollows hknown (show Anything [] from trivial) hfields
      exact ⟨hbetween.cons hsettled, other', hother, trivial⟩

/-- What settles is resolved, whatever is kept. -/
theorem plainShapes_follows_inputShapes (depth : Nat) (n : String) :
    Follows Anything (Consistent types) (plainShapes types depth n) (inputShapes types depth n) := by
  induction depth generalizing n with
  | zero => exact follows_throw _ _
  | succ depth ih =>
    intro known other shapes known' _ hother h
    obtain ⟨_, hsettled⟩ := (follows_plainShapes_length types (depth + 1) n).exists_ok [] h
    refine ⟨trivial, ?_⟩
    cases hlookup : other.lookup n with
    | some kept =>
      obtain ⟨_, hkept⟩ := hother n kept hlookup
      obtain rfl := settled_inj hsettled hkept
      exact ⟨other, inputShapes_of_lookup hlookup, hother⟩
    | none =>
      obtain ⟨-, between, hfields, hbetween⟩ :=
        follows_inputFields (.refl types) ih n (show Anything known from trivial) hother h
      refine ⟨(n, shapes) :: between, ?_, hbetween.cons hsettled⟩
      rw [inputShapes_of_lookup_eq_none hlookup]
      exact bind_eq_ok_iff.mpr ⟨(shapes, between), hfields, rfl⟩

/-! ### Types that are looked up alike -/

/-- Input types settle alike among types that are looked up alike. -/
theorem settled_follows_alike (h : Alike types types') (n : String) :
    Follows Anything Anything (settled types n) (settled types' n) := by
  have hlevels (depth : Nat) (n : String) :
      Follows Anything Anything (plainShapes types depth n) (plainShapes types' depth n) := by
    induction depth generalizing n with
    | zero => exact follows_throw _ _
    | succ depth ih => exact follows_inputFields h ih n
  exact (hlevels _ n).trans_anything (follows_plainShapes_length types' _ n)

end GraphDecl.Resolution
