import GraphDecl.Proofs.Compilation
import GraphDecl.Proofs.TypeScript.TypeTree
import GraphDecl.Rendering.OperationsFile

/-!
Fields with a condition. The directives `@skip` and `@include` leave a field out of an execution, depending on
the values of the variables. The declared types take no notice of them: they have a member for every selected
field, and none is marked as a member that may be missing.
-/

namespace GraphDecl

/-! ### Execution -/

/-- The condition of a directive, for these values of the variables. -/
def Directive.condition? (values : String → Json) (d : Directive) : Option Bool :=
  match d.arguments.find? (·.name == "if") with
  | some ⟨_, .boolean b, _⟩ => some b
  | some ⟨_, .variable n, _⟩ => match values n with
    | .boolean b => some b
    | _ => none
  | _ => none

/-- Whether the directive leaves out the field that it stands at. -/
def Directive.leavesOut (values : String → Json) (d : Directive) : Bool :=
  (d.name == "skip" && d.condition? values == some true) ||
    (d.name == "include" && d.condition? values == some false)

namespace Selection

def isLeftOut (values : String → Json) : Selection → Bool
  | field _ _ _ dirs _ => dirs.any (·.leavesOut values)
  | spread .. | inline .. => false

mutual

/-- The selection without the fields below it that are left out. -/
def executed (values : String → Json) : Selection → Selection
  | field label name args dirs below => field label name args dirs (executedBelow values below)
  | spread fragment dirs => spread fragment dirs
  | inline condition dirs selections => inline condition dirs (executedAmong values selections)

def executedBelow (values : String → Json) : Option (List Selection) → Option (List Selection)
  | none => none
  | some selections => some (executedAmong values selections)

def executedAmong (values : String → Json) : List Selection → List Selection
  | [] => []
  | x :: xs =>
    if x.isLeftOut values then executedAmong values xs
    else x.executed values :: executedAmong values xs

end

/-! ### Merged selections -/

/-- What is selected below a field. There is nothing below `__typename`. -/
def inside : Selection → List Selection
  | field _ name _ _ (some selections) => if name = typenameField then [] else selections
  | _ => []

/-- All that is selected below the fields whose result has this name. -/
def mergedBelow (result : String) (xs : List Selection) : List Selection :=
  xs.flatMap fun x => if x.resultName = result then x.inside else []

/-- All that is selected at the end of a path of result names. -/
def mergedAt (xs : List Selection) : List String → List Selection
  | [] => xs
  | n :: path => mergedAt (mergedBelow n xs) path

def namesAt (xs : List Selection) (path : List String) : List String :=
  (mergedAt xs path).map (·.resultName)

theorem mergedAt_nil (path : List String) : mergedAt [] path = [] := by
  induction path with
  | nil => rfl
  | cons n path ih => exact ih

/-- What is selected at a path is what each part of the selections selects there. -/
theorem mergedAt_append (xs ys : List Selection) (path : List String) :
    mergedAt (xs ++ ys) path = mergedAt xs path ++ mergedAt ys path := by
  induction path generalizing xs ys with
  | nil => rfl
  | cons n path ih =>
    rw [mergedAt, mergedBelow, List.flatMap_append, ih]
    rfl

end Selection

/-! ### Answers -/

/-- What an answer has under a name: the value of a leaf, a list, or an object. -/
inductive Answer
  | value (v : Json)
  | list (items : List Answer)
  | object (entries : List (String × Answer))

namespace Answer

mutual

/-- The objects of an answer, through all lists around them. -/
def objects : Answer → List (List (String × Answer))
  | value _ => []
  | list items => objectsAmong items
  | object entries => [entries]

def objectsAmong : List Answer → List (List (String × Answer))
  | [] => []
  | a :: rest => a.objects ++ objectsAmong rest

end

/-- The objects that an object has under a name. -/
def objectsBelow (entries : List (String × Answer)) (n : String) : List (List (String × Answer)) :=
  entries.flatMap fun e => if e.1 = n then e.2.objects else []

/-- The objects at the end of a path that starts from an object. -/
def objectsAt (entries : List (String × Answer)) : List String → List (List (String × Answer))
  | [] => [entries]
  | n :: path => (objectsBelow entries n).flatMap fun inside => objectsAt inside path

/-- A relation between each object of an answer and what is selected where it stands. -/
def Everywhere (P : List Selection → List (String × Answer) → Prop) (xs : List Selection)
    (entries : List (String × Answer)) : Prop :=
  ∀ path, ∀ object ∈ objectsAt entries path, P (Selection.mergedAt xs path) object

/-- The object has what is selected, and nothing else. -/
def HoldsExactly (xs : List Selection) (object : List (String × Answer)) : Prop :=
  ∀ n, n ∈ object.map (·.1) ↔ n ∈ xs.map (·.resultName)

/-- The object has all that is selected. -/
def HoldsAll (xs : List Selection) (object : List (String × Answer)) : Prop :=
  ∀ n ∈ xs.map (·.resultName), n ∈ object.map (·.1)

variable {P : List Selection → List (String × Answer) → Prop} {xs ys : List Selection}
  {entries : List (String × Answer)}

theorem holdsExactly_of_names (h : xs.map (·.resultName) = entries.map (·.1)) : HoldsExactly xs entries := by
  intro n
  rw [h]

/-- A relation holds everywhere if it does at the top and everywhere below each name. -/
theorem everywhere_iff :
    Everywhere P xs entries ↔
      P xs entries ∧ ∀ n, ∀ object ∈ objectsBelow entries n,
        Everywhere P (Selection.mergedBelow n xs) object := by
  constructor
  · intro h
    refine ⟨h [] entries List.mem_cons_self, ?_⟩
    intro n object hobject path inner hinner
    exact h (n :: path) inner (List.mem_flatMap.mpr ⟨object, hobject, hinner⟩)
  · rintro ⟨hhere, hbelow⟩ path inner hinner
    cases path with
    | nil =>
      cases List.mem_singleton.mp hinner
      exact hhere
    | cons n path =>
      obtain ⟨object, hobject, hinner⟩ := List.mem_flatMap.mp hinner
      exact hbelow n object hobject path inner hinner

theorem everywhere_holdsAll_nil : Everywhere HoldsAll [] entries := by
  intro path object _ n hn
  rw [Selection.mergedAt_nil] at hn
  cases hn

/-- An answer has all that two selections select if it has what each of them selects. -/
theorem everywhere_holdsAll_append :
    Everywhere HoldsAll (xs ++ ys) entries ↔
      Everywhere HoldsAll xs entries ∧ Everywhere HoldsAll ys entries := by
  simp only [Everywhere, HoldsAll, Selection.mergedAt_append, List.map_append, List.forall_mem_append,
    forall_and]

/-- A field contributes what is selected below it to the objects under its name. -/
theorem everywhere_mergedBelow_cons {x : Selection} :
    (∀ n, ∀ object ∈ objectsBelow entries n,
        Everywhere HoldsAll (Selection.mergedBelow n (x :: xs)) object) ↔
      (∀ object ∈ objectsBelow entries x.resultName, Everywhere HoldsAll x.inside object) ∧
        ∀ n, ∀ object ∈ objectsBelow entries n, Everywhere HoldsAll (Selection.mergedBelow n xs) object := by
  simp only [Selection.mergedBelow, List.flatMap_cons, everywhere_holdsAll_append]
  constructor
  · intro h
    refine ⟨?_, fun n object hobject => (h n object hobject).2⟩
    intro object hobject
    simpa using (h x.resultName object hobject).1
  · rintro ⟨hfirst, hrest⟩ n object hobject
    refine ⟨?_, hrest n object hobject⟩
    split
    · next hn => exact hfirst object (hn ▸ hobject)
    · exact everywhere_holdsAll_nil

end Answer

/-! ### Declared members -/

/-- An object has all members of an interface or of the type of a composite field. None of them is optional. -/
def HasMembers (members : List Member) (object : List (String × Answer)) : Prop :=
  ∀ m ∈ members, m.name ∈ object.map (·.1)

namespace ResultField

mutual

/-- All objects of an answer that stand under the field's name or below have the members of their types. -/
def Complete : ResultField → List (String × Answer) → Prop
  | leaf .., _ => True
  | composite name members _ fields, entries =>
    ∀ object ∈ Answer.objectsBelow entries name, HasMembers members object ∧ AllComplete fields object

def AllComplete : List ResultField → List (String × Answer) → Prop
  | [], _ => True
  | f :: fs, entries => f.Complete entries ∧ AllComplete fs entries

end

end ResultField

/-- An answer to the operation has all members of the flat selection, and its objects those of the types of
their fields. -/
structure Operation.Complete (op : Operation) (entries : List (String × Answer)) : Prop where
  selection : HasMembers op.selection.members entries
  fields : ResultField.AllComplete op.space.fields entries

open Answer

/-- The members of an interface are there if all that is selected is. -/
theorem hasMembers_flatMembers_iff {space : String} {xs : List Selection} {object : List (String × Answer)} :
    HasMembers (flatMembers space (xs.map (·.resultName))) object ↔ HoldsAll xs object := by
  simp [HasMembers, HoldsAll, flatMembers]

variable {s : Schema} {field? : String → Option FieldType}

/-- The objects below the fields of a level have their members if they have all that is selected there. -/
theorem allComplete_iff {xs : List Selection} {fields : List ResultField}
    (h : s.resultsOn field? xs = some fields) (entries : List (String × Answer)) :
    ResultField.AllComplete fields entries ↔ ∀ n, ∀ object ∈ objectsBelow entries n,
      Everywhere HoldsAll (Selection.mergedBelow n xs) object := by
  -- the objects vary, since a composite field hands on those under its own name
  induction h using Schema.resultsInduction generalizing entries with
  | nil field? =>
    simp only [ResultField.AllComplete, true_iff]
    intro n object _
    exact everywhere_holdsAll_nil
  | field field? label name args dirs below f xs fs h hxs hresult ihbelow ih =>
    rw [ResultField.AllComplete, everywhere_mergedBelow_cons, ih]
    refine and_congr_left' ?_
    cases hresult with
    | typename =>
      rw [ResultField.Complete, true_iff]
      intro object _
      cases below <;> exact everywhere_holdsAll_nil
    | leaf hne htype =>
      rw [ResultField.Complete, true_iff]
      intro object _
      exact everywhere_holdsAll_nil
    | @composite _ _ _ _ type selections inside hne htype hinside =>
      have hbelow : (Selection.field label name args dirs (some selections)).inside = selections :=
        if_neg hne
      rw [ResultField.Complete, hbelow, Schema.names_resultsOn hinside]
      refine forall₂_congr fun object _ => ?_
      rw [everywhere_iff, hasMembers_flatMembers_iff, ihbelow selections rfl hinside]

/-- An answer is complete for an operation if every object has all that is selected where it
stands. -/
theorem complete_compileNamed {name signature : String} {d : OperationDefinition} {op : Operation}
    (hd : d.Named) (h : compileNamed s name signature d = .ok op) (entries : List (String × Answer)) :
    op.Complete entries ↔ Everywhere HoldsAll d.selections entries := by
  obtain ⟨-, hresults⟩ := imports_compileNamed hd h
  obtain ⟨-, hmembers⟩ := interfaces_compileNamed h
  rw [everywhere_iff, ← allComplete_iff hresults, ← hasMembers_flatMembers_iff, ← hmembers]
  constructor
  · rintro ⟨hselection, hfields⟩
    exact ⟨hselection, hfields⟩
  · rintro ⟨hselection, hfields⟩
    exact ⟨hselection, hfields⟩

variable {text : String}

/-- An answer that holds exactly the executed fields has all members that are declared for the operation, if
and only if each name that is selected at the place of one of its objects is the name of an executed field
there. -/
theorem complete_iff {ops : List Operation} (h : compileOperations s text = .ok ops) :
    List.Forall₂ (fun d op => ∀ values entries,
      Everywhere HoldsExactly (Selection.executedAmong values d.selections) entries →
      (op.Complete entries ↔ ∀ path, objectsAt entries path ≠ [] →
        ∀ n ∈ Selection.namesAt d.selections path,
          n ∈ Selection.namesAt (Selection.executedAmong values d.selections) path))
      (operationsOf text) ops := by
  refine (forall₂_of_compileOperations h).imp ?_
  rintro d op ⟨hd, name, signature, -, hop⟩ values entries hexact
  rw [complete_compileNamed hd hop]
  constructor
  · intro hall path hobjects n hn
    obtain ⟨object, hobject⟩ := List.exists_mem_of_ne_nil _ hobjects
    exact (hexact path object hobject n).mp (hall path object hobject n hn)
  · intro hnames path object hobject n hn
    exact (hexact path object hobject n).mpr (hnames path (List.ne_nil_of_mem hobject) n hn)

/-- A field that is left out where `c` is false has a member like any other. -/
theorem left_out_member_declared :
    let sdl := "type Query \x7b a: Int \x7d"
    let text := "query Q($c: Boolean!) \x7b a @include(if: $c) \x7d"
    let values := fun _ => Json.boolean false
    ∃ s d op, buildSchema sdl = .ok s ∧ operationsOf text = [d] ∧ compileOperations s text = .ok [op] ∧
      Rendering.interfaceLines op.selection none =
        ["export interface QQuery \x7b", "  a: QQuery.a;", "\x7d"] ∧
      Everywhere HoldsExactly (Selection.executedAmong values d.selections) [] ∧ ¬ op.Complete [] := by
  intro sdl text values
  have hrun : ((buildSchema sdl).toOption.bind fun s => (compileOperations s text).toOption.map
      (·.map fun op => (Rendering.interfaceLines op.selection none, op.selection.members.map (·.name)))) =
        some [(["export interface QQuery \x7b", "  a: QQuery.a;", "\x7d"], ["a"])] := by
    decide +kernel
  have hexecuted : (operationsOf text).map (fun d =>
      Selection.namesAt (Selection.executedAmong values d.selections) []) = [[]] := by
    decide +kernel
  obtain ⟨s, op, hs, hops, hop⟩ := exists_schema_operation_of_map hrun
  obtain ⟨hlines, hmembers⟩ := Prod.mk.inj hop
  obtain ⟨d, hd, hexecuted⟩ := List.map_eq_singleton_iff.mp hexecuted
  refine ⟨s, d, op, hs, hd, hops, hlines, ?_, ?_⟩
  · exact everywhere_iff.mpr ⟨holdsExactly_of_names hexecuted, by simp [objectsBelow]⟩
  · intro hcomplete
    obtain ⟨m, hm, -⟩ := List.map_eq_singleton_iff.mp hmembers
    simpa using hcomplete.selection m (hm ▸ List.mem_singleton_self m)

/-- Where `c` is false, an answer without a post has all members, and an answer with one lacks its tags. -/
theorem complete_on_blog :
    let text := "query Q($c: Boolean!) \x7b post \x7b title @skip(if: $c) tags @include(if: $c) \x7d \x7d"
    let values := fun _ => Json.boolean false
    let without := [("post", Answer.value .null)]
    let withPost := [("post", Answer.object [("title", .value (.string "News"))])]
    ∃ d op, operationsOf text = [d] ∧ compileOperations Schema.blog text = .ok [op] ∧
      Everywhere HoldsExactly (Selection.executedAmong values d.selections) without ∧ op.Complete without ∧
      Everywhere HoldsExactly (Selection.executedAmong values d.selections) withPost ∧
      ¬ op.Complete withPost := by
  intro text values without withPost
  have hok : (compileOperations Schema.blog text).toOption.map (·.map (·.name)) = some ["QQuery"] := by
    decide +kernel
  have hnames : (operationsOf text).map (fun d =>
      let executed := Selection.executedAmong values d.selections
      (Selection.namesAt executed [], Selection.namesAt executed ["post"],
        Selection.namesAt d.selections [], Selection.namesAt d.selections ["post"])) =
          [(["post"], ["title"], ["post"], ["title", "tags"])] := by
    decide +kernel
  obtain ⟨op, hops, -⟩ := exists_operation_of_map hok
  obtain ⟨d, hd, hnames⟩ := List.map_eq_singleton_iff.mp hnames
  simp only [Prod.mk.injEq] at hnames
  obtain ⟨hroot, hpost, hroot', hpost'⟩ := hnames
  have hiff := complete_iff hops
  rw [hd, List.forall₂_cons] at hiff
  have hwithout : Everywhere HoldsExactly (Selection.executedAmong values d.selections) without :=
    everywhere_iff.mpr ⟨holdsExactly_of_names hroot, by simp [without, objectsBelow, objects]⟩
  have hwith : Everywhere HoldsExactly (Selection.executedAmong values d.selections) withPost := by
    refine everywhere_iff.mpr ⟨holdsExactly_of_names hroot, ?_⟩
    intro n object hobject
    obtain ⟨rfl, rfl⟩ : "post" = n ∧ object = [("title", .value (.string "News"))] := by
      simpa [withPost, objectsBelow, objects] using hobject
    exact everywhere_iff.mpr ⟨holdsExactly_of_names hpost, by simp [objectsBelow, objects]⟩
  refine ⟨d, op, hd, hops, hwithout, ?_, hwith, ?_⟩
  · rw [hiff.1 values without hwithout]
    intro path hobjects
    cases path with
    | nil =>
      rw [hroot, hroot']
      exact fun n hn => hn
    | cons n path => simp [without, objectsAt, objectsBelow, objects] at hobjects
  · rw [hiff.1 values withPost hwith]
    intro hnames
    have htags := hnames ["post"] (by simp [withPost, objectsAt, objectsBelow, objects]) "tags"
      (by simp [hpost'])
    simp [hpost] at htags

end GraphDecl
