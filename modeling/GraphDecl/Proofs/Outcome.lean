/-!
Outcomes of steps that may fail: a chain of steps succeeds when each of them does.
-/

namespace GraphDecl

variable {ε α β : Type}

/-- A step that goes on succeeds if both parts do. -/
theorem bind_eq_ok_iff {x : Except ε α} {f : α → Except ε β} {b : β} :
    x >>= f = .ok b ↔ ∃ a, x = .ok a ∧ f a = .ok b := by
  cases x with
  | error e => simp [bind, Except.bind]
  | ok a => simp [bind, Except.bind]

/-- A step that goes on fails in its first part or, if that succeeds, in the second. -/
theorem bind_eq_error_iff {x : Except ε α} {f : α → Except ε β} {e : ε} :
    x >>= f = .error e ↔ x = .error e ∨ ∃ a, x = .ok a ∧ f a = .error e := by
  cases x with
  | error e' => simp [bind, Except.bind]
  | ok a => simp [bind, Except.bind]

theorem map_eq_ok_iff {x : Except ε α} {f : α → β} {b : β} :
    f <$> x = .ok b ↔ ∃ a, x = .ok a ∧ f a = b := by
  cases x with
  | error e => simp [Functor.map, Except.map]
  | ok a => simp [Functor.map, Except.map]

/-- A row of steps fails with the first of them that does. -/
theorem mapM_eq_error_iff {f : α → Except ε β} {xs : List α} {e : ε} :
    xs.mapM f = .error e ↔
      ∃ front x back, xs = front ++ x :: back ∧ (∃ ys, front.mapM f = .ok ys) ∧ f x = .error e := by
  constructor
  · intro h
    induction xs with
    | nil => cases h
    | cons x xs ih =>
      rw [List.mapM_cons] at h
      cases hx : f x with
      | error e' =>
        rw [hx] at h
        cases h
        exact ⟨[], x, xs, rfl, ⟨[], rfl⟩, hx⟩
      | ok y =>
        cases hxs : xs.mapM f with
        | ok ys =>
          rw [hx, hxs] at h
          cases h
        | error e' =>
          rw [hx, hxs] at h
          cases h
          obtain ⟨front, z, back, rfl, ⟨ys, hys⟩, hz⟩ := ih hxs
          exact ⟨x :: front, z, back, rfl, ⟨y :: ys, by rw [List.mapM_cons, hx, hys]; rfl⟩, hz⟩
  · rintro ⟨front, x, back, rfl, ⟨ys, hys⟩, hx⟩
    rw [List.mapM_append, hys, List.mapM_cons, hx]
    rfl

/-- A row of steps succeeds if each of them does. -/
theorem exists_mapM_eq_ok_iff {f : α → Except ε β} {xs : List α} :
    (∃ ys, xs.mapM f = .ok ys) ↔ ∀ x ∈ xs, ∃ y, f x = .ok y := by
  induction xs with
  | nil => exact ⟨fun _ => nofun, fun _ => ⟨[], rfl⟩⟩
  | cons x xs ih =>
    rw [List.forall_mem_cons, ← ih, List.mapM_cons]
    constructor
    · rintro ⟨ys, h⟩
      obtain ⟨y, hy, h⟩ := bind_eq_ok_iff.mp h
      obtain ⟨rest, hrest, -⟩ := bind_eq_ok_iff.mp h
      exact ⟨⟨y, hy⟩, rest, hrest⟩
    · rintro ⟨⟨y, hy⟩, rest, hrest⟩
      exact ⟨y :: rest, by rw [hy, hrest]; rfl⟩

theorem mem_iff_of_mapM {f : α → Except ε β} {xs : List α} {ys : List β} (h : xs.mapM f = .ok ys) {y : β} :
    y ∈ ys ↔ ∃ x ∈ xs, f x = .ok y := by
  induction xs generalizing ys with
  | nil =>
    cases h
    simp
  | cons x xs ih =>
    rw [List.mapM_cons] at h
    obtain ⟨z, hz, h⟩ := bind_eq_ok_iff.mp h
    obtain ⟨zs, hzs, h⟩ := bind_eq_ok_iff.mp h
    cases h
    rw [List.mem_cons, ih hzs]
    constructor
    · rintro (rfl | ⟨x', hx', hy⟩)
      · exact ⟨x, List.mem_cons_self, hz⟩
      · exact ⟨x', List.mem_cons_of_mem _ hx', hy⟩
    · rintro ⟨x', hx', hy⟩
      rcases List.mem_cons.mp hx' with rfl | hx'
      · rw [hz] at hy
        cases hy
        exact .inl rfl
      · exact .inr ⟨x', hx', hy⟩

/-- Steps whose results differ by a function have rows of results that do so. -/
theorem mapM_eq_map {γ : Type} {f : α → Except ε γ} {g : α → Except ε β} {k : β → γ} {xs : List α}
    (h : ∀ x ∈ xs, f x = k <$> g x) : xs.mapM f = List.map k <$> xs.mapM g := by
  induction xs with
  | nil => rfl
  | cons x xs ih =>
    rw [List.forall_mem_cons] at h
    rw [List.mapM_cons, List.mapM_cons, h.1, ih h.2]
    cases g x with
    | error e => rfl
    | ok y => cases xs.mapM g <;> rfl

@[simp] theorem mapError_ok {δ : Type} (f : ε → δ) (a : α) : (.ok a : Except ε α).mapError f = .ok a := rfl

@[simp] theorem mapError_error {δ : Type} (f : ε → δ) (e : ε) : (.error e : Except ε α).mapError f = .error (f e) := rfl

/-- Results stay when faults are put another way. -/
theorem mapError_eq_ok_iff {δ : Type} {x : Except ε α} {f : ε → δ} {a : α} :
    x.mapError f = .ok a ↔ x = .ok a := by
  cases x with
  | error e => simp
  | ok b => simp

theorem mapError_eq_error_iff {δ : Type} {x : Except ε α} {f : ε → δ} {d : δ} :
    x.mapError f = .error d ↔ ∃ e, x = .error e ∧ f e = d := by
  cases x with
  | error e => simp
  | ok a => simp

/-- A step starts from what the one before it has left, and is not taken if that one has failed. -/
theorem run_bind {σ : Type} (a : ExceptT ε (StateM σ) α) (f : α → ExceptT ε (StateM σ) β) (s : σ) :
    (a >>= f).run.run s = match a.run.run s with
      | (.ok x, t) => (f x).run.run t
      | (.error e, t) => (.error e, t) := by
  rw [ExceptT.run_bind, StateT.run_bind]
  rcases a.run.run s with ⟨_ | _, _⟩ <;> rfl

/-- Putting faults another way changes neither results nor what happens to the state. -/
theorem run_adapt {σ δ : Type} (g : ε → δ) (a : ExceptT ε (StateM σ) α) (s : σ) :
    (a.adapt g).run.run s = ((a.run.run s).1.mapError g, (a.run.run s).2) := rfl

theorem adapt_pure {σ δ : Type} (g : ε → δ) (x : α) :
    (pure x : ExceptT ε (StateM σ) α).adapt g = (pure x : ExceptT δ (StateM σ) α) := rfl

theorem adapt_bind {σ δ : Type} (g : ε → δ) (a : ExceptT ε (StateM σ) α) (f : α → ExceptT ε (StateM σ) β) :
    (a >>= f).adapt g = a.adapt g >>= fun x => (f x).adapt g := by
  refine ExceptT.ext (StateT.ext fun s => ?_)
  rw [run_adapt, run_bind, run_bind, run_adapt]
  rcases a.run.run s with ⟨_ | x, t⟩ <;> rfl

/-- Steps whose errors are renamed one by one. -/
theorem adapt_mapM {σ δ γ : Type} (g : ε → δ) (f : γ → ExceptT ε (StateM σ) β) (xs : List γ) :
    (xs.mapM f).adapt g = xs.mapM fun x => (f x).adapt g := by
  induction xs with
  | nil => rfl
  | cons x xs ih =>
    rw [List.mapM_cons, List.mapM_cons, adapt_bind]
    refine bind_congr fun y => ?_
    rw [adapt_bind, ih]
    rfl

theorem toOption_eq_some_iff {x : Except ε α} {a : α} : x.toOption = some a ↔ x = .ok a := by
  cases x <;> simp [Except.toOption]

end GraphDecl
