import GraphDecl.Proofs.Compilation
import GraphDecl.Proofs.TypeScript.ReadBack

/-!
The names that operations declare. An operation has a flat name, which keeps the name that the document gives it,
and the name of its namespace, in camel case. Different operations have different flat names, while camel case may
bring names together, and both kinds of names may be names of imported types.
-/

namespace GraphDecl

/-! ### Words for kinds of operations -/

def OperationKind.word : OperationKind → String
  | query => "Query"
  | mutation => "Mutation"
  | subscription => "Subscription"

theorem camelCase_kind (k : OperationKind) : camelCase k.text = k.word := by
  cases k <;> decide

/-- The kind can be read off the end of a name. -/
theorem append_word_inj {a b : String} {k l : OperationKind} :
    a ++ k.word = b ++ l.word ↔ a = b ∧ k = l := by
  constructor
  · intro h
    have hend := congrArg (fun s : String => s.toList.reverse.take 5) h
    have hkind : k = l := by
      cases k <;> cases l <;> simp [OperationKind.word] at hend ⊢
    subst hkind
    exact ⟨(String.append_left_inj _).mp h, rfl⟩
  · rintro ⟨rfl, rfl⟩
    rfl

/-- No built-in scalar has a name that ends in the word of a kind of operation. -/
theorem isScalarName_append_word (a : String) (k : OperationKind) : isScalarName (a ++ k.word) = false := by
  cases hscalar : isScalarName (a ++ k.word) with
  | false => rfl
  | true =>
    obtain ⟨scalar, hscalar⟩ := Option.isSome_iff_exists.mp hscalar
    have hend := congrArg (fun s : String => s.toList.reverse.take 5) (Scalar.eq_name_of_ofName? hscalar)
    cases k <;> cases scalar <;> simp [OperationKind.word, Scalar.name] at hend

/-! ### Lists side by side -/

theorem forall_mem_iff_of_forall₂ {α β : Type} {R : α → β → Prop} {P : β → Prop} {Q : α → Prop} {xs : List α}
    {ys : List β} (h : List.Forall₂ R xs ys) (hPQ : ∀ x y, R x y → (P y ↔ Q x)) :
    (∀ y ∈ ys, P y) ↔ ∀ x ∈ xs, Q x := by
  induction h with
  | nil => simp
  | cons hxy _ ih => rw [List.forall_mem_cons, List.forall_mem_cons, hPQ _ _ hxy, ih]

/-- Related lists have the same pairwise property, if related pairs do. -/
theorem pairwise_iff_of_forall₂ {α β : Type} {R : α → β → Prop} {P : β → β → Prop} {Q : α → α → Prop}
    {xs : List α} {ys : List β} (h : List.Forall₂ R xs ys)
    (hPQ : ∀ x y x' y', R x y → R x' y' → (P y y' ↔ Q x x')) : ys.Pairwise P ↔ xs.Pairwise Q := by
  induction h with
  | nil => simp
  | cons hxy hrest ih =>
    rw [List.pairwise_cons, List.pairwise_cons, ih,
      forall_mem_iff_of_forall₂ hrest fun x y hx => hPQ _ _ x y hxy hx]

/-! ### Names of operations -/

/-- The name that the document gives an operation; empty if there is none. -/
def OperationDefinition.title (d : OperationDefinition) : String := d.name.getD ""

/-- An operation has the names that are made for a definition: one with its title, and one with its title in
camel case. -/
structure Operation.IsNamedFor (op : Operation) (d : OperationDefinition) : Prop where
  given : d.name = some d.title
  flat : op.name = d.title ++ d.kind.word
  space : op.space.name = camelCase d.title ++ d.kind.word

section

variable {s : Schema} {order : DisplayOrder} {text : String}

/-- The operations of a compilation are named for those of the document, in order. -/
theorem isNamedFor_of_compile {c : Compilation} (hc : compile s order text = .ok c) :
    List.Forall₂ (fun d op => op.IsNamedFor d) (operationsOf text) c.operations := by
  obtain ⟨-, -, hops⟩ := compile_eq_ok hc
  refine hops.imp ?_
  rintro d op ⟨-, name, signature, hname, h⟩
  obtain ⟨root, -, h⟩ := bind_eq_ok_iff.mp h
  obtain ⟨names, -, h⟩ := bind_eq_ok_iff.mp h
  obtain ⟨fields, -, h⟩ := bind_eq_ok_iff.mp h
  cases h
  have htitle : d.title = name := by rw [OperationDefinition.title, hname, Option.getD_some]
  rw [← htitle] at hname ⊢
  refine ⟨hname, ?_, ?_⟩
  · rw [← camelCase_kind]
    rfl
  · rw [← camelCase_kind]
    rfl

/-- A name that operations could have is imported if it is that of a type to which they refer. -/
theorem mem_imports_iff {c : Compilation} (hc : compile s order text = .ok c) (a : String) (k : OperationKind) :
    a ++ k.word ∈ c.imports ↔ a ++ k.word ∈ (operationsOf text).flatMap s.operationTypes := by
  rw [imports_compile hc, Imports.mem_ofUsed, isScalarName_append_word]
  simp

/-- Operations with different names have different flat names. Their namespaces have different names if and only
if no two operations of one kind have the same name in camel case, and no flat name is that of another operation's
namespace if and only if no operation is called like the camel case of another one of its kind. An operation
declares a name that is imported if and only if a variable or a leaf has a type of that name. -/
theorem operations_declared_apart_iff {c : Compilation} (hc : compile s order text = .ok c)
    (hdistinct : ((operationsOf text).map (·.name)).Nodup) :
    (c.operations.map (·.name)).Nodup ∧
    ((c.operations.map (·.space.name)).Nodup ↔ (operationsOf text).Pairwise fun d e =>
      d.kind = e.kind → camelCase d.title ≠ camelCase e.title) ∧
    (c.operations.Pairwise (fun op op' => op.name ≠ op'.space.name ∧ op.space.name ≠ op'.name) ↔
      (operationsOf text).Pairwise fun d e =>
        d.kind = e.kind → d.title ≠ camelCase e.title ∧ camelCase d.title ≠ e.title) ∧
    ((∀ op ∈ c.operations, op.name ∉ c.imports ∧ op.space.name ∉ c.imports) ↔
      ∀ d ∈ operationsOf text, ∀ n ∈ (operationsOf text).flatMap s.operationTypes,
        n ≠ d.title ++ d.kind.word ∧ n ≠ camelCase d.title ++ d.kind.word) := by
  have hnamed := isNamedFor_of_compile hc
  refine ⟨?_, ?_, ?_, ?_⟩
  · rw [List.Nodup, List.pairwise_map] at hdistinct ⊢
    have htitles : (operationsOf text).Pairwise fun d e => ¬ (d.name = e.name ∧ d.kind = e.kind) :=
      hdistinct.imp fun h hsame => h hsame.1
    refine (pairwise_iff_of_forall₂ hnamed ?_).mpr htitles
    intro d op d' op' h h'
    rw [h.flat, h'.flat, h.given, h'.given, ne_eq, append_word_inj, Option.some.injEq]
  · rw [List.Nodup, List.pairwise_map]
    refine pairwise_iff_of_forall₂ hnamed ?_
    intro d op d' op' h h'
    rw [h.space, h'.space, ne_eq, append_word_inj]
    tauto
  · refine pairwise_iff_of_forall₂ hnamed ?_
    intro d op d' op' h h'
    rw [h.flat, h.space, h'.flat, h'.space, ne_eq, ne_eq, append_word_inj, append_word_inj]
    tauto
  · refine forall_mem_iff_of_forall₂ hnamed ?_
    intro d op h
    rw [h.flat, h.space, mem_imports_iff hc, mem_imports_iff hc]
    constructor
    · exact fun h n hn => ⟨fun hflat => h.1 (hflat ▸ hn), fun hspace => h.2 (hspace ▸ hn)⟩
    · exact fun h => ⟨fun hflat => (h _ hflat).1 rfl, fun hspace => (h _ hspace).2 rfl⟩

end

/-- Two queries whose names have one camel case share a namespace, and a query may have the name of a type that
it imports. -/
theorem operations_share_names :
    (let text := "query post_author \x7b a \x7d query PostAuthor \x7b a \x7d"
    ∃ s c, buildSchema "type Query \x7b a: Int \x7d" = .ok s ∧ compile s .byKind text = .ok c ∧
      ((operationsOf text).map (·.name)).Nodup ∧ ¬ (c.operations.map (·.space.name)).Nodup) ∧
    (let text := "query post \x7b a \x7d"
    ∃ s c, buildSchema "type Query \x7b a: postQuery \x7d enum postQuery \x7b X \x7d" = .ok s ∧
      compile s .byKind text = .ok c ∧ ((operationsOf text).map (·.name)).Nodup ∧
      ∃ op ∈ c.operations, op.name ∈ c.imports) := by
  constructor
  · intro text
    have hrun : ((buildSchema "type Query \x7b a: Int \x7d").toOption.bind fun s =>
        (compile s .byKind text).toOption.map (·.operations.map (·.space.name))) =
          some ["PostAuthorQuery", "PostAuthorQuery"] := by
      decide +kernel
    obtain ⟨s, hs, hrun⟩ := Option.bind_eq_some_iff.mp hrun
    obtain ⟨c, hc, hspaces⟩ := Option.map_eq_some_iff.mp hrun
    refine ⟨s, c, toOption_eq_some_iff.mp hs, toOption_eq_some_iff.mp hc, by decide +kernel, ?_⟩
    rw [hspaces]
    decide
  · intro text
    have hrun : ((buildSchema "type Query \x7b a: postQuery \x7d enum postQuery \x7b X \x7d").toOption.bind fun s =>
        (compile s .byKind text).toOption.map fun c => (c.operations.map (·.name), c.imports)) =
          some (["postQuery"], ["postQuery"]) := by
      decide +kernel
    obtain ⟨s, hs, hrun⟩ := Option.bind_eq_some_iff.mp hrun
    obtain ⟨c, hc, hrun⟩ := Option.map_eq_some_iff.mp hrun
    obtain ⟨hnames, himports⟩ := Prod.mk.inj hrun
    obtain ⟨op, hop, hname⟩ := List.map_eq_singleton_iff.mp hnames
    refine ⟨s, c, toOption_eq_some_iff.mp hs, toOption_eq_some_iff.mp hc, by decide +kernel, op, ?_, ?_⟩
    · simp [hop]
    · simp [hname, himports]

/-- Queries and a mutation, two of which have one camel case and different kinds. -/
theorem operations_declared_apart_of_posts :
    let sdl := "type Query \x7b a: Tag \x7d type Mutation \x7b a: Int \x7d enum Tag \x7b NEW \x7d"
    let text := "query post_author \x7b a \x7d query postList \x7b a \x7d mutation PostAuthor \x7b a \x7d"
    ∃ s c, buildSchema sdl = .ok s ∧ compile s .byKind text = .ok c ∧
      ((operationsOf text).map (·.name)).Nodup ∧ c.imports = ["Tag"] ∧
      c.operations.map (·.name) = ["post_authorQuery", "postListQuery", "PostAuthorMutation"] ∧
      (c.operations.map (·.name)).Nodup ∧ (c.operations.map (·.space.name)).Nodup ∧
      c.operations.Pairwise (fun op op' => op.name ≠ op'.space.name ∧ op.space.name ≠ op'.name) ∧
      ∀ op ∈ c.operations, op.name ∉ c.imports ∧ op.space.name ∉ c.imports := by
  intro sdl text
  have hrun : ((buildSchema sdl).toOption.bind fun s => (compile s .byKind text).toOption.map fun c =>
      ((operationsOf text).flatMap s.operationTypes, c.imports, c.operations.map (·.name))) =
        some (["Tag", "Tag", "Int"], ["Tag"], ["post_authorQuery", "postListQuery", "PostAuthorMutation"]) := by
    decide +kernel
  obtain ⟨s, hs, hrun⟩ := Option.bind_eq_some_iff.mp hrun
  obtain ⟨c, hc, hrun⟩ := Option.map_eq_some_iff.mp hrun
  rw [toOption_eq_some_iff] at hs hc
  simp only [Prod.mk.injEq] at hrun
  obtain ⟨htypes, himports, hnames⟩ := hrun
  have hdistinct : ((operationsOf text).map (·.name)).Nodup := by decide +kernel
  obtain ⟨hflat, hspaces, hcrossed, hfree⟩ := operations_declared_apart_iff hc hdistinct
  refine ⟨s, c, hs, hc, hdistinct, himports, hnames, hflat, hspaces.mpr (by decide +kernel),
    hcrossed.mpr (by decide +kernel), hfree.mpr ?_⟩
  rw [htypes]
  decide +kernel

end GraphDecl
