import GraphDecl.Proofs.Schema.InputTypes
import GraphDecl.Proofs.Schema.RuleOrder

/-!
Resolving and the order of definitions. Whether definitions fit together is a matter of each of them and of the
types that they name, not of what has been resolved before, so that the definitions can stand in any order.
-/

namespace GraphDecl

theorem exists_mem_of_map_eq {α β : Type} {f : α → β} {xs ys : List α} (h : xs.map f = ys.map f) {y : α}
    (hy : y ∈ ys) : ∃ x ∈ xs, f x = f y := by
  have hmem : f y ∈ xs.map f := h ▸ List.mem_map_of_mem hy
  exact List.mem_map.mp hmem

namespace Resolution

/-! ### Actions that succeed -/

section

variable {α β : Type} {I J : Known → Prop} {m m' : Resolving α} {P Q : Prop}

/-- The action gives a result if nothing is known. -/
def Succeeds (m : Resolving α) : Prop := ∃ x known, m [] = .ok (x, known)

theorem Follows.succeeds (h : Follows Anything Anything m m') (hm : Succeeds m) : Succeeds m' := by
  obtain ⟨x, _, hx⟩ := hm
  obtain ⟨other, hother⟩ := h.exists_ok [] hx
  exact ⟨x, other, hother⟩

/-- From everything known with `I`, the action gives a result exactly if `P`, and keeps `I`. -/
def Decides (I : Known → Prop) (m : Resolving α) (P : Prop) : Prop :=
  ∀ ⦃known⦄, I known → (∀ ⦃x known'⦄, m known = .ok (x, known') → P ∧ I known') ∧
    (P → ∃ x known', m known = .ok (x, known'))

theorem decides_pure (x : α) : Decides I (pure x) True := by
  intro known hknown
  refine ⟨?_, fun _ => ⟨x, known, rfl⟩⟩
  intro y known' h
  cases h
  exact ⟨trivial, hknown⟩

theorem Decides.bind {f : α → Resolving β} (hm : Decides I m P) (hf : ∀ x, Decides I (f x) Q) :
    Decides I (m >>= f) (P ∧ Q) := by
  intro known hknown
  refine ⟨?_, ?_⟩
  · intro y known' h
    obtain ⟨⟨x, between⟩, hx, hy⟩ := bind_eq_ok_iff.mp h
    obtain ⟨hP, hbetween⟩ := (hm hknown).1 hx
    obtain ⟨hQ, hknown'⟩ := (hf x hbetween).1 hy
    exact ⟨⟨hP, hQ⟩, hknown'⟩
  · rintro ⟨hP, hQ⟩
    obtain ⟨x, between, hx⟩ := (hm hknown).2 hP
    obtain ⟨y, known', hy⟩ := (hf x ((hm hknown).1 hx).2).2 hQ
    exact ⟨y, known', bind_eq_ok_iff.mpr ⟨(x, between), hx, hy⟩⟩

theorem Decides.congr (hm : Decides I m P) (h : P ↔ Q) : Decides I m Q := propext h ▸ hm

/-- An action that is left out unless `c`. -/
theorem decides_if {c : Prop} [Decidable c] {m : Resolving Unit} (hm : Decides I m P) :
    Decides I (if c then m else pure ()) (c → P) := by
  split
  · next hc => exact hm.congr ⟨fun hP _ => hP, fun h => h hc⟩
  · next hc => exact (decides_pure ()).congr ⟨fun _ h => absurd h hc, fun _ => trivial⟩

theorem decides_unless {c : Bool} (e : ResolutionFault Nat) :
    Decides I (unless c do throw e) (c = true) := by
  cases c with
  | true => exact (decides_pure ()).congr ⟨fun _ => rfl, fun _ => trivial⟩
  | false => exact fun known _ => ⟨nofun, nofun⟩

/-- An action that is reached only if `c`. -/
theorem decides_guarded {c : Bool} {f : β → Resolving α} (e : ResolutionFault Nat) (hm : Decides I m P) :
    Decides I (if c then m else throw e >>= f) (c = true ∧ P) := by
  cases c with
  | true => exact hm.congr ⟨fun hP => ⟨rfl, hP⟩, fun h => h.2⟩
  | false => exact fun known _ => ⟨nofun, nofun⟩

theorem decides_discard (hm : Decides I m P) : Decides I (discard m) P :=
  (hm.bind fun _ => decides_pure ()).congr (and_iff_left trivial)

theorem decides_forM {f : α → Resolving Unit} {P : α → Prop} {xs : List α}
    (h : ∀ x ∈ xs, Decides I (f x) (P x)) : Decides I (xs.forM f) (∀ x ∈ xs, P x) := by
  induction xs with
  | nil => exact (decides_pure ()).congr ⟨fun _ => nofun, fun _ => trivial⟩
  | cons x xs ih =>
    obtain ⟨hx, hxs⟩ := List.forall_mem_cons.mp h
    exact (hx.bind fun _ => ih hxs).congr List.forall_mem_cons.symm

theorem Decides.inFieldsOf (hm : Decides I m P) (type : String) : Decides I (inFieldsOf type m) P := by
  intro known hknown
  simp only [inFieldsOf_eq_ok_iff]
  exact hm hknown

theorem decides_of_follows (h : Follows I Anything m m') (h' : Follows Anything I m' m) :
    Decides I m (Succeeds m') := by
  intro known hknown
  refine ⟨?_, ?_⟩
  · intro x known' hx
    obtain ⟨hknown', other, hother, -⟩ := h hknown (show Anything [] from trivial) hx
    exact ⟨⟨x, other, hother⟩, hknown'⟩
  · rintro ⟨x, _, hx⟩
    obtain ⟨-, known', hknown', -⟩ := h' trivial hknown hx
    exact ⟨x, known', hknown'⟩

theorem decides_checkText (directive argument : String) (type : TypeRef) (ds : List Directive) :
    Decides I (checkText directive argument type ds) (Succeeds (checkText directive argument type ds)) :=
  decides_of_follows (follows_checkText rfl _ _ _) (follows_checkText rfl _ _ _)

end

/-! ### Definitions that fit -/

section

variable (types : List DeclaredType)

def ArgumentFits (d : InputValueDefinition) : Prop :=
  Succeeds (inputShape types (settled types) .argumentType d)

structure FieldFits (d : FieldDefinition) : Prop where
  arguments : ∀ a ∈ d.arguments, ArgumentFits types a
  deprecation : Succeeds (checkDeprecation d.directives)
  type : isOutput types d.type = true

structure TypeFits (t : DeclaredType) : Prop where
  interfaces : (t.parts.flatMap (·.interfaces)).all (kind? types · = some .interface) = true
  members : (t.parts.flatMap (·.members)).all (kind? types · = some .object) = true
  fields : ∀ f ∈ t.parts.flatMap (·.outputFields), FieldFits types f
  input : t.kind = .inputObject → Succeeds (settled types t.name)

/-- What is checked of a scalar or enum. -/
structure FirstFits (t : DeclaredType) : Prop where
  scalar : t.kind = .scalar → Succeeds (checkSpecification t.definition.directives)
  enum : t.kind = .enum → ∀ v ∈ t.parts.flatMap (·.values), Succeeds (checkDeprecation v.directives)

/-- The types and directives fit together. -/
structure AllFit (directives : List DirectiveDefinition) : Prop where
  first : ∀ t ∈ types, FirstFits t
  directives : ∀ d ∈ directives, ∀ a ∈ d.arguments, ArgumentFits types a
  types : ∀ t ∈ types, TypeFits types t

theorem decides_resolveInput (n : String) :
    Decides (Consistent types) (resolveInput types n) (Succeeds (settled types n)) :=
  decides_of_follows (inputShapes_follows_settled _ n) (plainShapes_follows_inputShapes _ n)

theorem decides_argument (d : InputValueDefinition) :
    Decides (Consistent types) (inputShape types (resolveInput types) .argumentType d)
      (ArgumentFits types d) := by
  apply decides_of_follows
  · exact follows_inputShape (.refl types) (inputShapes_follows_settled _) rfl _
  · exact follows_inputShape (.refl types) (plainShapes_follows_inputShapes _) rfl _

theorem decides_resolveArguments (args : List InputValueDefinition) :
    Decides (Consistent types) (resolveArguments types args) (∀ a ∈ args, ArgumentFits types a) :=
  decides_forM fun a _ => decides_discard (decides_argument types a)

theorem decides_resolveField (d : FieldDefinition) :
    Decides (Consistent types) (resolveField types d) (FieldFits types d) := by
  have h : Decides (Consistent types) (resolveField types d) ((∀ a ∈ d.arguments, ArgumentFits types a) ∧
      Succeeds (checkDeprecation d.directives) ∧ isOutput types d.type = true) := by
    apply (decides_resolveArguments types d.arguments).bind
    intro _
    apply (decides_checkText _ _ _ d.directives).bind
    intro _
    exact decides_unless _
  exact h.congr ⟨fun ⟨hargs, hdeprecation, htype⟩ => ⟨hargs, hdeprecation, htype⟩,
    fun h => ⟨h.arguments, h.deprecation, h.type⟩⟩

theorem decides_checkFirst (I : Known → Prop) (t : DeclaredType) : Decides I (checkFirst t) (FirstFits t) := by
  unfold checkFirst
  split
  · next hkind =>
    refine (decides_checkText _ _ _ _).congr ⟨fun h => ⟨fun _ => h, ?_⟩, fun h => h.scalar hkind⟩
    intro henum
    rw [hkind] at henum
    cases henum
  · next hkind =>
    refine (decides_forM fun v _ => decides_checkText _ _ _ _).congr
      ⟨fun h => ⟨?_, fun _ => h⟩, fun h => h.enum hkind⟩
    intro hscalar
    rw [hkind] at hscalar
    cases hscalar
  · next hscalar henum =>
    exact (decides_pure ()).congr ⟨fun _ => ⟨fun h => absurd h hscalar, fun h => absurd h henum⟩, fun _ => trivial⟩

theorem decides_resolveType (t : DeclaredType) :
    Decides (Consistent types) (resolveType types t) (TypeFits types t) := by
  have h : Decides (Consistent types) (resolveType types t)
      ((t.parts.flatMap (·.interfaces)).all (kind? types · = some .interface) = true ∧
        (t.parts.flatMap (·.members)).all (kind? types · = some .object) = true ∧
        (∀ f ∈ t.parts.flatMap (·.outputFields), FieldFits types f) ∧
        (t.kind = .inputObject → Succeeds (settled types t.name))) := by
    refine decides_guarded _ (decides_guarded _ ?_)
    apply ((decides_forM fun f _ => decides_resolveField types f).inFieldsOf t.name).bind
    intro _
    exact decides_if (decides_discard (decides_resolveInput types t.name))
  exact h.congr ⟨fun ⟨hinterfaces, hmembers, hfields, hinput⟩ => ⟨hinterfaces, hmembers, hfields, hinput⟩,
    fun h => ⟨h.interfaces, h.members, h.fields, h.input⟩⟩

theorem decides_resolveAll (directives : List DirectiveDefinition) :
    Decides (Consistent types) (resolveAll types directives) (AllFit types directives) := by
  have h : Decides (Consistent types) (resolveAll types directives)
      ((∀ t ∈ types, FirstFits t) ∧ (∀ d ∈ directives, ∀ a ∈ d.arguments, ArgumentFits types a) ∧
        ∀ t ∈ types, TypeFits types t) := by
    apply (decides_forM fun t _ => decides_checkFirst _ t).bind
    intro _
    apply (decides_forM fun d _ => decides_resolveArguments types d.arguments).bind
    intro _
    exact decides_forM fun t _ => decides_resolveType types t
  exact h.congr ⟨fun ⟨hfirst, hdirectives, htypes⟩ => ⟨hfirst, hdirectives, htypes⟩,
    fun h => ⟨h.first, h.directives, h.types⟩⟩

end

/-! ### Types apart from places -/

def unplacedType (t : DeclaredType) : DeclaredType := ⟨t.definition.unplaced, t.parts.map TypeBody.unplaced⟩

theorem interfaces_unplaced (b : TypeBody) : b.unplaced.interfaces = b.interfaces := by
  cases b <;> rfl

theorem members_unplaced (b : TypeBody) : b.unplaced.members = b.members := by
  cases b <;> rfl

theorem outputFields_unplaced (b : TypeBody) :
    b.unplaced.outputFields = b.outputFields.map FieldDefinition.unplaced := by
  cases b <;> rfl

theorem inputFields_unplaced (b : TypeBody) :
    b.unplaced.inputFields = b.inputFields.map InputValueDefinition.unplaced := by
  cases b <;> rfl

theorem values_unplaced (b : TypeBody) : b.unplaced.values = b.values.map EnumValueDefinition.unplaced := by
  cases b <;> rfl

section

variable {types types' : List DeclaredType}

theorem ArgumentFits.alike (h : Alike types types') {a a' : InputValueDefinition}
    (ha : a.unplaced = a'.unplaced) (hfits : ArgumentFits types a) : ArgumentFits types' a' :=
  (follows_inputShape h (settled_follows_alike h) ha _).succeeds hfits

theorem isOutput_alike (h : Alike types types') (t : TypeRef) : isOutput types t = isOutput types' t := by
  rw [isOutput, isOutput, h.kind?]

theorem FieldFits.alike (h : Alike types types') {f f' : FieldDefinition} (hf : f.unplaced = f'.unplaced)
    (hfits : FieldFits types f) : FieldFits types' f' where
  arguments a' ha' := by
    obtain ⟨a, ha, heq⟩ := exists_mem_of_map_eq (congrArg FieldDefinition.arguments hf :) ha'
    exact (hfits.arguments a ha).alike h heq
  deprecation :=
    (follows_checkText (congrArg FieldDefinition.directives hf :) _ _ _).succeeds hfits.deprecation
  type := by
    have htype : f.type = f'.type := (congrArg FieldDefinition.type hf :)
    rw [← htype, ← isOutput_alike h]
    exact hfits.type

/-- Parts that are the same but for places hold the same but for places. -/
theorem map_flatMap_of_unplaced {α : Type} {f : TypeBody → List α} {g : α → α}
    (hf : ∀ b, f b.unplaced = (f b).map g) {parts parts' : List TypeBody}
    (h : parts.map TypeBody.unplaced = parts'.map TypeBody.unplaced) :
    (parts.flatMap f).map g = (parts'.flatMap f).map g := by
  have hflat (parts : List TypeBody) : (parts.flatMap f).map g = (parts.map TypeBody.unplaced).flatMap f := by
    simp only [List.flatMap_map, List.map_flatMap, hf]
  rw [hflat, hflat, h]

theorem flatMap_of_unplaced {α : Type} {f : TypeBody → List α} (hf : ∀ b, f b.unplaced = f b)
    {parts parts' : List TypeBody} (h : parts.map TypeBody.unplaced = parts'.map TypeBody.unplaced) :
    parts.flatMap f = parts'.flatMap f := by
  have hid : ∀ b, f b.unplaced = (f b).map id := fun b => by rw [hf, List.map_id]
  simpa only [List.map_id] using map_flatMap_of_unplaced hid h

section

variable {t t' : DeclaredType} (ht : unplacedType t = unplacedType t')
include ht

theorem kind_of_unplaced : t.kind = t'.kind := by
  have hkind := congrArg DeclaredType.kind ht
  simpa only [DeclaredType.kind, unplacedType, TypeDefinition.unplaced, TypeBody.kind_unplaced] using hkind

theorem name_of_unplaced : t.name = t'.name := (congrArg DeclaredType.name ht :)

theorem parts_of_unplaced : t.parts.map TypeBody.unplaced = t'.parts.map TypeBody.unplaced :=
  congrArg DeclaredType.parts ht

/-- A type that fits among some types fits among others like them. -/
theorem TypeFits.alike (h : Alike types types') (hfits : TypeFits types t) : TypeFits types' t' where
  interfaces := by
    rw [← flatMap_of_unplaced interfaces_unplaced (parts_of_unplaced ht)]
    simpa only [h.kind?] using hfits.interfaces
  members := by
    rw [← flatMap_of_unplaced members_unplaced (parts_of_unplaced ht)]
    simpa only [h.kind?] using hfits.members
  fields f' hf' := by
    have hfields := map_flatMap_of_unplaced outputFields_unplaced (parts_of_unplaced ht)
    obtain ⟨f, hf, heq⟩ := exists_mem_of_map_eq hfields hf'
    exact (hfits.fields f hf).alike h heq
  input hkind := by
    rw [← name_of_unplaced ht]
    rw [← kind_of_unplaced ht] at hkind
    exact (settled_follows_alike h _).succeeds (hfits.input hkind)

theorem FirstFits.alike (hfits : FirstFits t) : FirstFits t' where
  scalar hkind := by
    rw [← kind_of_unplaced ht] at hkind
    have hdirectives := congrArg (fun t => t.definition.directives) ht
    exact (follows_checkText hdirectives _ _ _).succeeds (hfits.scalar hkind)
  enum hkind v' hv' := by
    rw [← kind_of_unplaced ht] at hkind
    have hvalues := map_flatMap_of_unplaced values_unplaced (parts_of_unplaced ht)
    obtain ⟨v, hv, heq⟩ := exists_mem_of_map_eq hvalues hv'
    have hdirectives : v.directives.map Directive.unplaced = v'.directives.map Directive.unplaced :=
      (congrArg EnumValueDefinition.directives heq :)
    exact (follows_checkText hdirectives _ _ _).succeeds (hfits.enum hkind v hv)

end

/-- What fits together does so in any order and at any places. -/
theorem AllFit.alike (h : Alike types types') {directives directives' : List DirectiveDefinition}
    (htypes : ∀ t' ∈ types', ∃ t ∈ types, unplacedType t = unplacedType t')
    (hdirectives : ∀ d' ∈ directives', ∃ d ∈ directives, d.unplaced = d'.unplaced)
    (hfit : AllFit types directives) : AllFit types' directives' where
  first t' ht' := by
    obtain ⟨t, ht, heq⟩ := htypes t' ht'
    exact (hfit.first t ht).alike heq
  directives d' hd' a' ha' := by
    obtain ⟨d, hd, heq⟩ := hdirectives d' hd'
    obtain ⟨a, ha, heq⟩ := exists_mem_of_map_eq (congrArg DirectiveDefinition.arguments heq :) ha'
    exact (hfit.directives d hd a ha).alike h heq
  types t' ht' := by
    obtain ⟨t, ht, heq⟩ := htypes t' ht'
    exact (hfit.types t ht).alike heq h

/-- Types with different names are looked up alike in any order. -/
theorem alike_of_perm (hnames : (types.map (·.name)).Nodup)
    (hperm : (types'.map unplacedType).Perm (types.map unplacedType)) : Alike types types' := by
  have hnames' : ((types.map unplacedType).map (·.name)).Nodup := by
    rw [List.map_map]
    exact hnames
  have hfind (types : List DeclaredType) (n : String) :
      (types.map unplacedType).find? (·.name == n) = (types.find? (·.name == n)).map unplacedType := by
    rw [List.find?_map]
    rfl
  have hsame (n : String) : (types.find? (·.name == n)).map unplacedType =
      (types'.find? (·.name == n)).map unplacedType := by
    rw [← hfind, ← hfind]
    exact (find?_eq_of_perm hnames' hperm n).symm
  have hparts (n : String) : (partsOf types n).map TypeBody.unplaced =
      (partsOf types' n).map TypeBody.unplaced := by
    have hpartsOf (types : List DeclaredType) : (partsOf types n).map TypeBody.unplaced =
        (((types.find? (·.name == n)).map unplacedType).map (·.parts)).getD [] := by
      rw [partsOf]
      cases types.find? (·.name == n) <;> rfl
    rw [hpartsOf, hpartsOf, hsame]
  refine ⟨?_, ?_, fun n => map_flatMap_of_unplaced inputFields_unplaced (hparts n)⟩
  · intro n
    have hkind (types : List DeclaredType) : kind? types n =
        (((types.find? (·.name == n)).map unplacedType).map (·.kind)).or
          ((Builtin.types.find? (·.name == n)).map (·.content.kind)) := by
      rw [kind?]
      cases types.find? (·.name == n) with
      | none => rfl
      | some t => exact congrArg some (TypeBody.kind_unplaced _).symm
    rw [hkind, hkind, hsame]
  · intro n
    have hvalues := congrArg (List.map (·.name)) (map_flatMap_of_unplaced values_unplaced (hparts n))
    rw [List.map_map, List.map_map] at hvalues
    have hnames : ((partsOf types n).flatMap (·.values)).map (·.name) =
        ((partsOf types' n).flatMap (·.values)).map (·.name) := hvalues
    rw [enumValues, enumValues, hnames]

end

end Resolution

/-- Definitions make up a schema if all of them fit, each by itself. -/
theorem resolve_eq_ok_iff {ds : List Definition} :
    resolve ds = .ok () ↔ Resolution.AllFit (declaredParts ds) (ds.filterMap (·.directive?)) := by
  have hdecides := Resolution.decides_resolveAll (declaredParts ds) (ds.filterMap (·.directive?))
    (Resolution.consistent_nil _)
  rw [resolve, map_eq_ok_iff]
  constructor
  · rintro ⟨⟨_, known⟩, h, -⟩
    exact (hdecides.1 h).1
  · intro h
    obtain ⟨_, known, hrun⟩ := hdecides.2 h
    exact ⟨((), known), hrun, rfl⟩

/-! ### Documents -/

theorem extensionsOf_unplaced (name : String) (ds : List Definition) :
    extensionsOf name (ds.map Definition.unplaced) = (extensionsOf name ds).map TypeBody.unplaced := by
  rw [extensionsOf, extensionsOf, List.filterMap_map, List.map_filterMap]
  congr 1
  funext d
  cases d with
  | typeExtension d =>
    by_cases hname : d.name = name <;> simp [Definition.unplaced, TypeExtension.unplaced, hname]
  | _ => rfl

/-- Taking the places away changes nothing else about the types of a document. -/
theorem declaredParts_unplaced (ds : List Definition) :
    declaredParts (ds.map Definition.unplaced) = (declaredParts ds).map Resolution.unplacedType := by
  have htypes : ((ds.map Definition.unplaced).filterMap (·.type?)).filter (!Builtin.reserved.contains ·.name) =
      ((ds.filterMap (·.type?)).filter (!Builtin.reserved.contains ·.name)).map TypeDefinition.unplaced := by
    rw [filterMap_type?_unplaced, List.filter_map]
    rfl
  rw [declaredParts, declaredParts, htypes, List.map_map, List.map_map]
  refine List.map_congr_left fun d _ => ?_
  simp [Resolution.unplacedType, extensionsOf_unplaced, TypeDefinition.unplaced]

/-- Without extensions, a type has no parts but its definition. -/
theorem declaredParts_eq {ds : List Definition} (h : Rules.NoTypeExtension ds) :
    declaredParts ds =
      ((ds.filterMap (·.type?)).filter (!Builtin.reserved.contains ·.name)).map fun d => ⟨d, [d.body]⟩ := by
  have hextensions (name : String) : extensionsOf name ds = [] := by
    rw [extensionsOf, List.filterMap_eq_nil_iff]
    intro d hd
    cases d with
    | typeExtension e => exact absurd rfl (h _ hd e)
    | _ => rfl
  simp only [declaredParts, hextensions]

theorem Rules.NoTypeExtension.unplaced {ds : List Definition} (h : NoTypeExtension ds) :
    NoTypeExtension (ds.map Definition.unplaced) := by
  intro d hd
  obtain ⟨d, hmem, rfl⟩ := List.mem_map.mp hd
  cases d with
  | typeExtension e => exact absurd rfl (h _ hmem e)
  | _ => exact nofun

section

variable {ds ds' : List Definition} (hds : Rules.NoTypeExtension ds)
  (hperm : (ds'.map Definition.unplaced).Perm (ds.map Definition.unplaced))
include hds hperm

/-- The same definitions in another order declare the same types, apart from places. -/
theorem perm_declaredParts :
    ((declaredParts ds').map Resolution.unplacedType).Perm ((declaredParts ds).map Resolution.unplacedType) := by
  rw [← declaredParts_unplaced, ← declaredParts_unplaced, declaredParts_eq hds.unplaced,
    declaredParts_eq (hds.unplaced.of_perm hperm)]
  exact ((hperm.filterMap _).filter _).map _

/-- Definitions fit together in any order, if none of them extends a type. -/
theorem resolve_of_perm (hnames : ((declaredParts ds).map (·.name)).Nodup) (h : resolve ds = .ok ()) :
    resolve ds' = .ok () := by
  have hparts := perm_declaredParts hds hperm
  have hdirectives : ((ds'.filterMap (·.directive?)).map DirectiveDefinition.unplaced).Perm
      ((ds.filterMap (·.directive?)).map DirectiveDefinition.unplaced) := by
    rw [← filterMap_directive?_unplaced, ← filterMap_directive?_unplaced]
    exact hperm.filterMap _
  rw [resolve_eq_ok_iff] at h ⊢
  refine h.alike (Resolution.alike_of_perm hnames hparts) ?_ ?_
  · intro t' ht'
    exact List.mem_map.mp (hparts.mem_iff.mp (List.mem_map_of_mem ht'))
  · intro d' hd'
    exact List.mem_map.mp (hdirectives.mem_iff.mp (List.mem_map_of_mem hd'))

end

end GraphDecl
