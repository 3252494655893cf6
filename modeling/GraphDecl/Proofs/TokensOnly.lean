import GraphDecl.Proofs.Schema.References
import GraphDecl.Proofs.Signatures

/-!
What the text between tokens is good for: nothing but the signatures of operations. Texts with the same tokens give
the same schema and the same operations, and a document without operations is one without tokens.
-/

namespace GraphDecl

/-! ### Ignored text -/

/-- A text of blanks, commas, byte order marks, line ends and comments only. A comment goes from a number sign to
the end of its line. -/
inductive Ignored : List Char → Prop
  | nil : Ignored []
  | insignificant {c : Char} {cs : List Char} (hc : isInsignificant c = true) (h : Ignored cs) : Ignored (c :: cs)
  | comment {line rest : List Char} (hline : ∀ c ∈ line, isNewline c = false)
    (hrest : ∀ c, rest.head? = some c → isNewline c = true) (h : Ignored rest) :
    Ignored ('#' :: (line ++ rest))

namespace Lexer

theorem blank_of_ignored {cs : List Char} (h : Ignored cs) : Blank cs := by
  induction h with
  | nil => exact blank_nil
  | insignificant hc h ih =>
    intro offset
    rw [lexemesFrom_insignificant hc, ih]
    simp [Nat.add_assoc, Nat.add_comm 1]
  | comment hline hrest h ih =>
    intro offset
    rw [lexemesFrom_comment hline hrest, ih]
    simp [Nat.add_assoc, Nat.add_comm 1]

/-- Text with no token but the one for its end is ignored. -/
theorem ignored_of_tokens {offset : Nat} {cs : List Char}
    (h : (lexemesFrom offset cs).map (·.token) = [.eof]) : Ignored cs := by
  fun_induction lexemesFrom offset cs with
  | case1 => exact .nil
  | case2 offset c r hc ih => exact .insignificant hc (ih h)
  | case3 offset r n hhash ih =>
    obtain ⟨line, rest, rfl, hlength, hline, hrest⟩ := exists_line r
    rw [show n = line.length from hlength, List.drop_left] at ih h
    exact .comment hline hrest (ih h)
  | case4 offset c r hc hcomment t n hread ih =>
    have hend := (readToken_eq_ok_iff.mp hread).isEnd
    rw [show t = .eof from (List.cons.inj h).1] at hend
    cases hend
  | case5 offset c r hc hcomment fault hread => cases h

/-- The texts without tokens are those of ignored characters and comments. -/
theorem blank_iff_ignored {cs : List Char} : Blank cs ↔ Ignored cs :=
  ⟨fun h => ignored_of_tokens (by rw [h 0]; rfl), blank_of_ignored⟩

end Lexer

/-! ### Texts with the same tokens -/

variable {s : Schema} {order : DisplayOrder} {sdl sdl' text text' : String}

/-- Documents with the same tokens have the same definitions, wherever these stand. -/
theorem definitions_of_tokens (h : tokens text = tokens text') {passages : List Passage}
    (hparse : parseDocument text = .ok passages) :
    ∃ passages', parseDocument text' = .ok passages' ∧
      passages'.map (·.definition) = passages.map (·.definition) := by
  obtain ⟨ds, rest, hread, rfl⟩ := parseDocument_eq_ok_iff.mp hparse
  refine ⟨ds.map (passageOf text'), parseDocument_eq_ok_iff.mpr ⟨ds, rest, h ▸ hread, rfl⟩, ?_⟩
  rw [List.map_map, List.map_map]
  rfl

/-- A schema is read from the tokens of its text alone. -/
theorem buildSchema_of_tokens (h : tokens sdl = tokens sdl') (hs : buildSchema sdl = .ok s) :
    buildSchema sdl' = .ok s := by
  obtain ⟨passages, hparse, hfaults, hresolve, rfl⟩ := buildSchema_eq_ok_iff.mp hs
  obtain ⟨passages', hparse', hsame⟩ := definitions_of_tokens h hparse
  rw [← hsame] at hfaults hresolve ⊢
  exact buildSchema_eq_ok_iff.mpr ⟨passages', hparse', hfaults, hresolve, rfl⟩

def Operation.unsigned (op : Operation) : Operation := { op with signature := "" }

/-- An operation compiles in the same way with any other text of its own. -/
theorem compileDefinition_signature (signature : String) {signature' : String} {d : Definition} {op : Operation}
    (h : compileDefinition s signature' d = .ok op) :
    compileDefinition s signature d = .ok { op with signature := signature } := by
  obtain ⟨o, name, rfl, hname, h⟩ := compileDefinition_eq_ok h
  obtain ⟨root, hroot, h⟩ := bind_eq_ok_iff.mp h
  obtain ⟨names, hnames, h⟩ := bind_eq_ok_iff.mp h
  obtain ⟨fields, hfields, h⟩ := bind_eq_ok_iff.mp h
  cases h
  rw [compileDefinition, hname]
  exact bind_eq_ok_iff.mpr ⟨root, hroot, bind_eq_ok_iff.mpr
    ⟨names, hnames, bind_eq_ok_iff.mpr ⟨fields, hfields, rfl⟩⟩⟩

theorem compilePassages_of_definitions {passages passages' : List Passage}
    (hsame : passages'.map (·.definition) = passages.map (·.definition)) {ops : List Operation}
    (h : compilePassages s text passages = .ok ops) :
    ∃ ops', compilePassages s text' passages' = .ok ops' ∧
      ops'.map (·.unsigned) = ops.map (·.unsigned) := by
  induction passages generalizing passages' ops with
  | nil =>
    cases h
    rw [List.map_nil, List.map_eq_nil_iff] at hsame
    exact ⟨[], hsame ▸ rfl, rfl⟩
  | cons p passages ih =>
    rw [List.map_cons, List.map_eq_cons_iff] at hsame
    obtain ⟨p', passages', rfl, hdefinition, hsame⟩ := hsame
    obtain ⟨op, hop, h⟩ := bind_eq_ok_iff.mp h
    obtain ⟨rest, hrest, h⟩ := bind_eq_ok_iff.mp h
    cases h
    obtain ⟨rest', hrest', hunsigned⟩ := ih hsame hrest
    have hop' := compileDefinition_signature (slice text' p'.start p'.stop) hop
    rw [← hdefinition] at hop'
    refine ⟨_, bind_eq_ok_iff.mpr ⟨_, hop', bind_eq_ok_iff.mpr ⟨rest', hrest', rfl⟩⟩, ?_⟩
    rw [List.map_cons, List.map_cons, hunsigned]
    rfl

theorem isBlankDocument_eq_ok_iff {blank : Bool} : isBlankDocument text = .ok blank ↔
    ((tokens text).headD .eof).isValid = true ∧ ((tokens text).headD .eof == .eof) = blank := by
  unfold isBlankDocument tokens
  cases lexemes text with
  | nil => simp [Token.isValid]
  | cons l ls =>
    obtain ⟨t, start, stop⟩ := l
    cases t <;> simp [Token.isValid]

/-- Documents with the same tokens compile to the same declarations, but for the texts of
operations. -/
theorem compile_of_tokens (h : tokens text = tokens text') {c : Compilation}
    (hc : compile s order text = .ok c) :
    ∃ c', compile s order text' = .ok c' ∧ c'.types = c.types ∧
      c'.operations.map (·.unsigned) = c.operations.map (·.unsigned) ∧ c'.imports = c.imports := by
  obtain ⟨blank, hblank, hc⟩ := bind_eq_ok_iff.mp hc
  rw [mapError_eq_ok_iff, isBlankDocument_eq_ok_iff, h, ← isBlankDocument_eq_ok_iff] at hblank
  cases blank with
  | true =>
    cases hc
    exact ⟨_, bind_eq_ok_iff.mpr ⟨true, mapError_eq_ok_iff.mpr hblank, rfl⟩, rfl, rfl, rfl⟩
  | false =>
    obtain ⟨ops, hops, hc⟩ := bind_eq_ok_iff.mp hc
    cases hc
    unfold compileOperations at hops
    split at hops
    · cases hops
    · next passages hparse =>
      obtain ⟨passages', hparse', hsame⟩ := definitions_of_tokens h hparse
      obtain ⟨ops', hops', hunsigned⟩ :=
        compilePassages_of_definitions hsame (mapError_eq_ok_iff.mp hops)
      have hcompile : compileOperations s text' = .ok ops' := by
        rw [compileOperations, hparse']
        exact mapError_eq_ok_iff.mpr hops'
      have himports : ops'.map (·.imports) = ops.map (·.imports) := by
        have hmap := congrArg (List.map (·.imports)) hunsigned
        rw [List.map_map, List.map_map] at hmap
        exact hmap
      refine ⟨_, bind_eq_ok_iff.mpr ⟨false, mapError_eq_ok_iff.mpr hblank,
        bind_eq_ok_iff.mpr ⟨ops', hcompile, rfl⟩⟩, rfl, hunsigned, ?_⟩
      exact congrArg Imports.merge himports

/-- A document has no operations exactly if all of it is ignored. -/
theorem compile_without_operations_iff :
    (∃ c, compile s order text = .ok c ∧ c.operations = []) ↔ Ignored text.toList := by
  rw [← Lexer.blank_iff_ignored]
  constructor
  · rintro ⟨c, hc, hnone⟩
    obtain ⟨-, ⟨parts, hholds, hparts⟩, -⟩ := compile_eq_ok_iff.mp hc
    rw [hnone, List.forall₂_nil_right_iff] at hparts
    rw [hparts] at hholds
    generalize text.toList = z at hholds
    cases hholds with
    | blank hz => exact hz
  · intro hblank
    exact ⟨⟨s.declarations order, [], Imports.merge []⟩,
      compile_eq_ok_iff.mpr ⟨rfl, ⟨[], .blank hblank, .nil⟩, rfl⟩, rfl⟩

/-- Only tokens matter. Schema texts with the same tokens are accepted alike and give the same declarations in
either order. Documents with the same tokens compile alike, and give the same imports and the same operations but
for their signatures. A document gives no operations, without a fault, exactly if there is none or all of it is
blanks, commas, byte order marks, line ends and comments. -/
theorem only_tokens_matter (hsdl : tokens sdl = tokens sdl') (htext : tokens text = tokens text') (s : Schema)
    (order : DisplayOrder) (document? : Option String) :
    ((∃ t, buildSchema sdl = .ok t) ↔ ∃ t, buildSchema sdl' = .ok t) ∧
    (∀ t t', buildSchema sdl = .ok t → buildSchema sdl' = .ok t' →
      ∀ order, t.declarations order = t'.declarations order) ∧
    ((∃ c, compile s order text = .ok c) ↔ ∃ c, compile s order text' = .ok c) ∧
    (∀ c c', compile s order text = .ok c → compile s order text' = .ok c' →
      c.operations.map (·.unsigned) = c'.operations.map (·.unsigned) ∧ c.imports = c'.imports) ∧
    ((∃ c, compile s order (document?.getD "") = .ok c ∧ c.operations = []) ↔
      ∀ document ∈ document?, Ignored document.toList) := by
  refine ⟨⟨?_, ?_⟩, ?_, ⟨?_, ?_⟩, ?_, ?_⟩
  · exact fun ⟨t, ht⟩ => ⟨t, buildSchema_of_tokens hsdl ht⟩
  · exact fun ⟨t, ht⟩ => ⟨t, buildSchema_of_tokens hsdl.symm ht⟩
  · intro t t' ht ht' order
    cases (buildSchema_of_tokens hsdl ht).symm.trans ht'
    rfl
  · intro ⟨c, hc⟩
    obtain ⟨c', hc', -⟩ := compile_of_tokens htext hc
    exact ⟨c', hc'⟩
  · intro ⟨c, hc⟩
    obtain ⟨c', hc', -⟩ := compile_of_tokens htext.symm hc
    exact ⟨c', hc'⟩
  · intro c c' hc hc'
    obtain ⟨c'', hc'', -, hoperations, himports⟩ := compile_of_tokens htext hc
    cases hc'.symm.trans hc''
    exact ⟨hoperations.symm, himports.symm⟩
  · rw [compile_without_operations_iff]
    cases document? with
    | none => simp [Ignored.nil]
    | some document => simp

/-- Texts that differ in comments, commas, line ends and byte order marks. -/
theorem only_tokens_matter_of_tags :
    let sdl := "type Query \x7b a(t: Tag, n: Int = 1): Tag \x7d enum Tag \x7b NEW \x7d"
    let sdl' := "# \x7d\n\ufefftype Query\x7ba(t:Tag n:Int=1):Tag\x7d,,enum Tag # \x7b\r\x7bNEW\x7d"
    let text := "query Q($t: Tag) \x7b a(t: $t) \x7d"
    let text' := "query # Q\nQ($t:Tag,)\x7ba(t:$t,)\x7d#"
    tokens sdl = tokens sdl' ∧ tokens text = tokens text' ∧
    ∃ s s' c c', buildSchema sdl = .ok s ∧ buildSchema sdl' = .ok s' ∧
      (∀ order, s.declarations order = s'.declarations order) ∧
      compile s .asIs text = .ok c ∧ compile s .asIs text' = .ok c' ∧
      c.operations.map (·.signature) = [text] ∧
      c.operations.map (·.unsigned) = c'.operations.map (·.unsigned) ∧
      c.imports = ["Tag"] ∧ c'.imports = c.imports ∧ Ignored "\ufeff# query\r, ".toList := by
  intro sdl sdl' text text'
  have hsdl : tokens sdl = tokens sdl' := by decide +kernel
  have htext : tokens text = tokens text' := by decide +kernel
  have hrun : ((buildSchema sdl).toOption.bind fun s => (compile s .asIs text).toOption.bind fun c =>
      (compile s .asIs "\ufeff# query\r, ").toOption.map fun d =>
        (c.operations.map (·.signature), c.imports, d.operations.length)) = some ([text], ["Tag"], 0) := by
    decide +kernel
  obtain ⟨s, hs, hrun⟩ := Option.bind_eq_some_iff.mp hrun
  obtain ⟨c, hc, hrun⟩ := Option.bind_eq_some_iff.mp hrun
  obtain ⟨d, hd, hrun⟩ := Option.map_eq_some_iff.mp hrun
  rw [toOption_eq_some_iff] at hs hc hd
  simp only [Prod.mk.injEq, List.length_eq_zero_iff] at hrun
  obtain ⟨hsignatures, himports, hnone⟩ := hrun
  obtain ⟨haccepts, htypes, hcompiles, hsame, hignored⟩ :=
    only_tokens_matter hsdl htext s .asIs (some "\ufeff# query\r, ")
  obtain ⟨s', hs'⟩ := haccepts.mp ⟨s, hs⟩
  obtain ⟨c', hc'⟩ := hcompiles.mp ⟨c, hc⟩
  obtain ⟨hoperations, himports'⟩ := hsame c c' hc hc'
  exact ⟨hsdl, htext, s, s', c, c', hs, hs', htypes s s' hs hs', hc, hc', hsignatures, hoperations, himports,
    himports'.symm, hignored.mp ⟨d, hd, hnone⟩ _ rfl⟩

end GraphDecl
