import GraphDecl.Proofs.Signatures
import GraphDecl.Proofs.Sources.Loading

/-!
Joined texts. What sources load to is the texts of their pieces on lines of their own, and that text compiles
to what the texts compile to on their own.
-/

namespace GraphDecl

variable {s : Schema} {order : DisplayOrder}

/-- No token and no definition runs across the line break between two texts. -/
theorem CompilesTo.append {t u : String} {ops ops' : List Operation} (h : CompilesTo s t ops)
    (h' : CompilesTo s u ops') : CompilesTo s (t ++ "\n" ++ u) (ops ++ ops') := by
  obtain ⟨parts, hholds, hparts⟩ := h
  obtain ⟨parts', hholds', hparts'⟩ := h'
  refine ⟨parts ++ parts', ?_, List.rel_append hparts hparts'⟩
  have htext : (t ++ "\n" ++ u).toList = t.toList ++ '\n' :: u.toList := by simp
  rw [htext]
  exact hholds.append_newline hholds'

/-- Texts that compile one by one compile to the same operations when they are joined by line
feeds. -/
theorem compilesTo_joinWith {texts : List String} {parts : List (List Operation)}
    (h : List.Forall₂ (CompilesTo s) texts parts) :
    CompilesTo s (Text.joinWith "\n" texts) parts.flatten := by
  induction h with
  | nil => exact ⟨[], .blank Lexer.blank_nil, .nil⟩
  | @cons t ops texts parts hops hrest ih =>
    cases hrest with
    | nil => simpa [Text.joinWith] using hops
    | @cons u ops' texts parts hops' hrest =>
      rw [Text.joinWith_cons_cons, List.flatten_cons]
      exact hops.append ih

/-- Texts that compile on their own, joined line by line as sources are loaded, compile to all their operations
in order, and the document imports what they import. -/
theorem compile_joined {texts : List String} {cs : List Compilation}
    (h : List.Forall₂ (fun t c => compile s order t = .ok c) texts cs) :
    (∀ w base sources, Source.texts w base sources = .ok texts →
      Source.load w base sources = .ok (Text.joinWith "\n" texts)) ∧
    ∃ c, compile s order (Text.joinWith "\n" texts) = .ok c ∧ c.types = s.declarations order ∧
      c.operations = cs.flatMap (·.operations) ∧ c.imports = Imports.merge (cs.map (·.imports)) := by
  have hcompile := h.imp fun t c => compile_eq_ok_iff.mp
  constructor
  · intro w base sources htexts
    rw [Source.load_eq, htexts]
    rfl
  · have hparts : List.Forall₂ (CompilesTo s) texts (cs.map (·.operations)) :=
      List.forall₂_map_right_iff.mpr (hcompile.imp fun t c hc => hc.2.1)
    have himports : cs.map (·.imports) = cs.map fun c => Imports.merge (c.operations.map (·.imports)) :=
      List.map_congr_left (forall_mem_of_forall₂ hcompile fun t c hc => hc.2.2)
    refine ⟨⟨s.declarations order, cs.flatMap (·.operations), Imports.merge (cs.map (·.imports))⟩,
      compile_eq_ok_iff.mpr ⟨rfl, compilesTo_joinWith hparts, ?_⟩, rfl, rfl, rfl⟩
    rw [himports, Imports.merge_map_merge, List.map_flatMap]

theorem compile_joined_of_blog :
    let first := "query A \x7b post \x7b title \x7d \x7d # end"
    let second := "# none\r"
    let third := "\r\n,query B($t: Tag) \x7b post \x7b tags \x7d \x7d\r"
    let w : World := .plain (.directory []) fun url =>
      .page 200 (if url = "https://a.b/1" then first else if url = "https://a.b/2" then second else third)
    ∃ a b c text joined, compile Schema.blog .byKind first = .ok a ∧
      compile Schema.blog .byKind second = .ok b ∧ compile Schema.blog .byKind third = .ok c ∧
      Source.load w "/" ["https://a.b/1", "https://a.b/2", "https://a.b/3"] = .ok text ∧
      compile Schema.blog .byKind text = .ok joined ∧
      joined.operations = a.operations ++ (b.operations ++ c.operations) ∧
      joined.imports = Imports.merge [a.imports, b.imports, c.imports] := by
  intro first second third w
  have hcompiles (t : String) (ht : (compile Schema.blog .byKind t).toOption.isSome = true) :
      ∃ c, compile Schema.blog .byKind t = .ok c := by
    obtain ⟨c, hc⟩ := Option.isSome_iff_exists.mp ht
    exact ⟨c, toOption_eq_some_iff.mp hc⟩
  obtain ⟨a, ha⟩ := hcompiles first (by decide +kernel)
  obtain ⟨b, hb⟩ := hcompiles second (by decide +kernel)
  obtain ⟨c, hc⟩ := hcompiles third (by decide +kernel)
  have htexts : (Source.texts w "/" ["https://a.b/1", "https://a.b/2", "https://a.b/3"]).toOption =
      some [first, second, third] := by
    decide +kernel
  obtain ⟨hload, joined, hjoined, -, hoperations, himports⟩ :=
    compile_joined (.cons ha (.cons hb (.cons hc .nil)))
  exact ⟨a, b, c, _, joined, ha, hb, hc, hload w "/" _ (toOption_eq_some_iff.mp htexts), hjoined,
    by simpa using hoperations, himports⟩

end GraphDecl
