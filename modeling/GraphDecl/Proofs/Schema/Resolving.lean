import Mathlib.Data.List.Forall2
import GraphDecl.Proofs.Document.Places
import GraphDecl.Proofs.Outcome
import GraphDecl.Schema.Resolution

/-!
Resolving in two ways. One action follows another if it gives the same result whenever the other one gives one,
whatever is kept on the way. The checks of definitions follow one another if types are looked up alike.
-/

namespace GraphDecl

theorem forall₂_of_map_eq {α β : Type} {f : α → β} {xs ys : List α} (h : xs.map f = ys.map f) :
    List.Forall₂ (fun x y => f x = f y) xs ys := by
  induction xs generalizing ys with
  | nil =>
    rw [List.map_nil, eq_comm, List.map_eq_nil_iff] at h
    subst h
    exact .nil
  | cons x xs ih =>
    cases ys with
    | nil => cases h
    | cons y ys =>
      obtain ⟨hfirst, hrest⟩ := List.cons.inj h
      exact .cons hfirst (ih hrest)

namespace Resolution

/-- The fields of input types that resolving has come by. -/
abbrev Known := List (String × List InputShape)

section

variable {α β γ : Type} {I J K : Known → Prop} {m m' m'' : Resolving α}

/-- Whenever the first action gives a result, the second one gives the same result. `I` is kept by the first
one, and `J` by the second one. -/
def Follows (I J : Known → Prop) (m m' : Resolving α) : Prop :=
  ∀ ⦃known other x known'⦄, I known → J other → m known = .ok (x, known') →
    I known' ∧ ∃ other', m' other = .ok (x, other') ∧ J other'

/-! ### Rules -/

theorem follows_pure (x : α) : Follows I J (pure x) (pure x) := by
  intro known other y known' hknown hother h
  cases h
  exact ⟨hknown, other, rfl, hother⟩

theorem follows_throw (e : ResolutionFault Nat) (m' : Resolving α) : Follows I J (throw e) m' := by
  intro known other y known' _ _ h
  cases h

/-- A step that goes on follows another one if both parts do. -/
theorem Follows.bind {f f' : α → Resolving β} (hm : Follows I J m m') (hf : ∀ x, Follows I J (f x) (f' x)) :
    Follows I J (m >>= f) (m' >>= f') := by
  intro known other y known' hknown hother h
  obtain ⟨⟨x, between⟩, hx, hy⟩ := bind_eq_ok_iff.mp h
  obtain ⟨hbetween, other', hx', hother'⟩ := hm hknown hother hx
  obtain ⟨hknown', other'', hy', hother''⟩ := hf x hbetween hother' hy
  exact ⟨hknown', other'', bind_eq_ok_iff.mpr ⟨(x, other'), hx', hy'⟩, hother''⟩

/-- Following is transitive. -/
theorem Follows.trans (hm : Follows I J m m') (hm' : Follows J K m' m'') {initial : Known}
    (hinitial : J initial) : Follows I K m m'' := by
  intro known other x known' hknown hother h
  obtain ⟨hknown', middle, hx, -⟩ := hm hknown hinitial h
  exact ⟨hknown', (hm' hinitial hother hx).2⟩

theorem follows_ite {c : Prop} [Decidable c] {n n' : Resolving α} (hm : c → Follows I J m m')
    (hn : ¬c → Follows I J n n') : Follows I J (if c then m else n) (if c then m' else n') := by
  split
  · next hc => exact hm hc
  · next hc => exact hn hc

theorem follows_mapM {R : α → β → Prop} {f : α → Resolving γ} {g : β → Resolving γ}
    (h : ∀ x y, R x y → Follows I J (f x) (g y)) {xs : List α} {ys : List β} (hxs : List.Forall₂ R xs ys) :
    Follows I J (xs.mapM f) (ys.mapM g) := by
  induction hxs with
  | nil => exact follows_pure []
  | cons hx _ ih =>
    rw [List.mapM_cons, List.mapM_cons]
    apply (h _ _ hx).bind
    intro z
    apply ih.bind
    exact fun zs => follows_pure (z :: zs)

/-- Naming the type at fault does not change what succeeds. -/
theorem inFieldsOf_eq_ok_iff {type : String} {known known' : Known} {x : α} :
    inFieldsOf type m known = .ok (x, known') ↔ m known = .ok (x, known') := by
  show tryCatch (m known) _ = .ok (x, known') ↔ m known = .ok (x, known')
  cases m known with
  | ok r => exact .rfl
  | error e => exact ⟨nofun, nofun⟩

theorem Follows.inFieldsOf (h : Follows I J m m') (type : String) :
    Follows I J (inFieldsOf type m) (inFieldsOf type m') := by
  intro known other x known' hknown hother hx
  obtain ⟨hknown', other', hx', hother'⟩ := h hknown hother (inFieldsOf_eq_ok_iff.mp hx)
  exact ⟨hknown', other', inFieldsOf_eq_ok_iff.mpr hx', hother'⟩

/-! ### Directives -/

/-- Items that are the same but for their places are found in the same way. -/
theorem rel_find?_of_map_eq {f : α → α} {p : α → Bool} (hp : ∀ x, p (f x) = p x) {xs ys : List α}
    (h : xs.map f = ys.map f) : Option.Rel (fun x y => f x = f y) (xs.find? p) (ys.find? p) := by
  have hfind (zs : List α) : (zs.map f).find? p = (zs.find? p).map f := by
    rw [List.find?_map, show p ∘ f = p from funext hp]
  have hboth : (xs.find? p).map f = (ys.find? p).map f := by rw [← hfind, ← hfind, h]
  generalize xs.find? p = x at hboth ⊢
  generalize ys.find? p = y at hboth ⊢
  cases x with
  | none =>
    rw [Option.map_none, eq_comm, Option.map_eq_none_iff] at hboth
    subst hboth
    exact .none
  | some x =>
    obtain ⟨y, rfl, hy⟩ := Option.map_eq_some_iff.mp hboth.symm
    exact .some hy.symm

theorem follows_checkText {ds ds' : List Directive} (h : ds.map Directive.unplaced = ds'.map Directive.unplaced)
    (directive argument : String) (type : TypeRef) :
    Follows I J (checkText directive argument type ds) (checkText directive argument type ds') := by
  unfold checkText
  have hfound : Option.Rel (fun d d' => d.unplaced = d'.unplaced) (ds.find? (·.name == directive))
      (ds'.find? (·.name == directive)) := by
    refine rel_find?_of_map_eq ?_ h
    exact fun _ => rfl
  generalize ds.find? (·.name == directive) = found at hfound ⊢
  generalize ds'.find? (·.name == directive) = found' at hfound ⊢
  cases hfound with
  | none => exact follows_pure ()
  | @some d d' hd =>
    have hargs : Option.Rel (fun a a' => a.unplaced = a'.unplaced) (d.arguments.find? (·.name == argument))
        (d'.arguments.find? (·.name == argument)) := by
      refine rel_find?_of_map_eq ?_ (congrArg Directive.arguments hd)
      exact fun _ => rfl
    dsimp only
    generalize d.arguments.find? (·.name == argument) = given at hargs ⊢
    generalize d'.arguments.find? (·.name == argument) = given' at hargs ⊢
    cases hargs with
    | none => exact follows_ite (fun _ => follows_throw _ _) (fun _ => follows_pure ())
    | @some a a' ha =>
      have hvalue : a.value = a'.value := (congrArg Argument.value ha :)
      obtain ⟨name, value, place⟩ := a
      obtain ⟨name', value', place'⟩ := a'
      subst hvalue
      cases value with
      | null => exact follows_ite (fun _ => follows_throw _ _) (fun _ => follows_pure ())
      | string text block => exact follows_pure ()
      | _ => exact follows_throw _ _

end

/-! ### Types that are looked up alike -/

def inputFieldsOf (types : List DeclaredType) (name : String) : List InputValueDefinition :=
  (partsOf types name).flatMap (·.inputFields)

/-- Names stand for the same kinds, values and input fields, apart from places. -/
structure Alike (types types' : List DeclaredType) : Prop where
  kind? : ∀ n, kind? types n = kind? types' n
  enumValues : ∀ n, enumValues types n = enumValues types' n
  inputFields : ∀ n, (inputFieldsOf types n).map InputValueDefinition.unplaced =
    (inputFieldsOf types' n).map InputValueDefinition.unplaced

theorem Alike.refl (types : List DeclaredType) : Alike types types :=
  ⟨fun _ => rfl, fun _ => rfl, fun _ => rfl⟩

section

variable {I J : Known → Prop} {types types' : List DeclaredType} (h : Alike types types')
include h

theorem follows_leafFits (v : Value) (type : String) :
    Follows I J (leafFits types v type) (leafFits types' v type) := by
  unfold leafFits
  rw [h.kind?, h.enumValues]
  split
  all_goals first
    | exact follows_pure _
    | exact follows_throw _ _

end

theorem follows_shapesFit {I J : Known → Prop} {given given' : List (String × (TypeRef → Resolving Bool))}
    (h : ∀ n, Option.Rel (fun c c' => ∀ t, Follows I J (c t) (c' t)) (given.lookup n) (given'.lookup n))
    (shapes : List InputShape) : Follows I J (shapesFit given shapes) (shapesFit given' shapes) := by
  induction shapes with
  | nil => exact follows_pure true
  | cons s ss ih =>
    have hrest (fits : Bool) : Follows I J (if fits then shapesFit given ss else pure false)
        (if fits then shapesFit given' ss else pure false) :=
      follows_ite (fun _ => ih) (fun _ => follows_pure false)
    unfold shapesFit
    have hs := h s.name
    generalize given.lookup s.name = check at hs ⊢
    generalize given'.lookup s.name = check' at hs ⊢
    cases hs with
    | none => exact (follows_pure _).bind hrest
    | some hcheck => exact (hcheck s.type).bind hrest

section

variable {I J : Known → Prop} {types types' : List DeclaredType}
  {resolve resolve' : String → Resolving (List InputShape)}

mutual

/-- A value is checked alike among types that are alike, if these are resolved alike. -/
theorem follows_fits (h : Alike types types') (hresolve : ∀ n, Follows I J (resolve n) (resolve' n))
    (v : Value) (t : TypeRef) : Follows I J (fits types resolve v t) (fits types' resolve' v t) := by
  match v, t with
  | .null, t => exact follows_pure _
  | .list vs, .list item _ => exact follows_allFit h hresolve vs item
  | .list vs, .named n bang => exact follows_leafFits h (.list vs) n
  | .object fields, t =>
    rw [fits, fits, ← h.kind?]
    refine follows_ite (fun _ => ?_) (fun _ => follows_leafFits h _ _)
    exact (hresolve t.name).bind fun shapes => follows_shapesFit (rel_checks h hresolve fields) shapes
  | .variable n, t => exact follows_leafFits h (.variable n) t.name
  | .int s, t => exact follows_leafFits h (.int s) t.name
  | .float s, t => exact follows_leafFits h (.float s) t.name
  | .string s b, t => exact follows_leafFits h (.string s b) t.name
  | .boolean b, t => exact follows_leafFits h (.boolean b) t.name
  | .enum n, t => exact follows_leafFits h (.enum n) t.name

theorem follows_allFit (h : Alike types types') (hresolve : ∀ n, Follows I J (resolve n) (resolve' n))
    (vs : List Value) (t : TypeRef) : Follows I J (allFit types resolve vs t) (allFit types' resolve' vs t) := by
  match vs with
  | [] => exact follows_pure true
  | v :: vs =>
    rw [allFit, allFit]
    apply (follows_fits h hresolve v t).bind
    exact fun fits => follows_ite (fun _ => follows_allFit h hresolve vs t) (fun _ => follows_pure false)

theorem rel_checks (h : Alike types types') (hresolve : ∀ n, Follows I J (resolve n) (resolve' n))
    (fields : List (String × Value)) (n : String) :
    Option.Rel (fun c c' => ∀ t, Follows I J (c t) (c' t)) ((checks types resolve fields).lookup n)
      ((checks types' resolve' fields).lookup n) := by
  match fields with
  | [] => exact .none
  | (key, v) :: fields =>
    rw [checks, checks, List.lookup_cons, List.lookup_cons]
    cases n == key with
    | true => exact .some fun t => follows_fits h hresolve v t
    | false => exact rel_checks h hresolve fields n

end

/-- The same definition is resolved alike, wherever it stands. -/
theorem follows_inputShape (h : Alike types types') (hresolve : ∀ n, Follows I J (resolve n) (resolve' n))
    {d d' : InputValueDefinition} (hd : d.unplaced = d'.unplaced) (misplaced : ResolutionFault Nat) :
    Follows I J (inputShape types resolve misplaced d) (inputShape types' resolve' misplaced d') := by
  have hname : d'.name = d.name := (congrArg InputValueDefinition.name hd.symm :)
  have htype : d'.type = d.type := (congrArg InputValueDefinition.type hd.symm :)
  have hdefault : d'.default = d.default := (congrArg InputValueDefinition.default hd.symm :)
  have hdirs : d.directives.map Directive.unplaced = d'.directives.map Directive.unplaced :=
    (congrArg InputValueDefinition.directives hd :)
  have hrest (defaulted : Bool) :
      Follows I J
        (checkDeprecation d.directives >>= fun _ =>
          if isInput types d.type then pure (InputShape.mk d.name d.type defaulted) else throw misplaced)
        (checkDeprecation d'.directives >>= fun _ =>
          if isInput types' d.type then pure (InputShape.mk d.name d.type defaulted) else throw misplaced) := by
    apply (follows_checkText hdirs _ _ _).bind
    intro _
    rw [isInput, isInput, h.kind?]
    exact follows_ite (fun _ => follows_pure _) (fun _ => follows_throw _ _)
  unfold inputShape
  rw [hname, htype, hdefault]
  cases d.default with
  | none => exact (follows_pure false).bind hrest
  | some v => exact (follows_fits h hresolve v d.type).bind hrest

/-- So are the fields of an input type. -/
theorem follows_inputFields (h : Alike types types') (hresolve : ∀ n, Follows I J (resolve n) (resolve' n))
    (name : String) :
    Follows I J
      (inFieldsOf name ((inputFieldsOf types name).mapM (inputShape types resolve .inputFieldType)))
      (inFieldsOf name ((inputFieldsOf types' name).mapM (inputShape types' resolve' .inputFieldType))) := by
  refine Follows.inFieldsOf ?_ name
  refine follows_mapM ?_ (forall₂_of_map_eq (h.inputFields name))
  exact fun d d' hd => follows_inputShape h hresolve hd _

end

end Resolution

end GraphDecl
