import GraphDecl.Document.Lexer
import GraphDecl.Proofs.TypeScript.TypeTree
import GraphDecl.Text.Cutting

/-!
How TypeScript types are written. The brackets of an array bind to the operand before them, a bar takes what
stands on both sides of it, and round brackets make an operand of any type. A text has at most one reading.
-/

namespace GraphDecl.TypeScript

/-! ### Symbols -/

/-- A word is a name, or names with dots between them. -/
inductive Symbol
  | word (text : String)
  | mark (c : Char)
  deriving DecidableEq

def isWordPart (c : Char) : Bool := isNameContinue c || c == '.'

def wordSymbol : List Char → List Symbol
  | [] => []
  | cs => [.word (String.ofList cs)]

/-- The symbols of a text that follows the characters `word`. -/
def scanAfter (word : List Char) : List Char → List Symbol
  | [] => wordSymbol word
  | c :: r =>
    if isWordPart c then scanAfter (word ++ [c]) r
    else wordSymbol word ++ (if c = ' ' then [] else [.mark c]) ++ scanAfter [] r

def scan (cs : List Char) : List Symbol := scanAfter [] cs

def symbols (text : String) : List Symbol := scan text.toList

theorem scanAfter_of_word {word cs : List Char} (h : ∀ c ∈ cs, isWordPart c = true) :
    scanAfter word cs = wordSymbol (word ++ cs) := by
  induction cs generalizing word with
  | nil => simp [scanAfter]
  | cons c cs ih =>
    rw [scanAfter, if_pos (h c List.mem_cons_self), ih fun d hd => h d (List.mem_cons_of_mem _ hd),
      List.append_assoc, List.singleton_append]

/-- A text can be cut in front of any character that is part of no word. -/
theorem scan_append {c : Char} (hc : isWordPart c = false) (cs r : List Char) :
    scan (cs ++ c :: r) = scan cs ++ scan (c :: r) := by
  have hafter (word : List Char) : scanAfter word (cs ++ c :: r) = scanAfter word cs ++ scan (c :: r) := by
    induction cs generalizing word with
    | nil => simp [scan, scanAfter, hc, wordSymbol]
    | cons d cs ih =>
      rw [List.cons_append, scanAfter, scanAfter]
      split
      · exact ih _
      · rw [ih, ← List.append_assoc]
  exact hafter []

theorem scan_mark {c : Char} (hc : isWordPart c = false) (hblank : c ≠ ' ') (r : List Char) :
    scan (c :: r) = .mark c :: scan r := by
  simp [scan, scanAfter, hc, hblank, wordSymbol]

theorem scan_blank (r : List Char) : scan (' ' :: r) = scan r := by
  simp [scan, scanAfter, isWordPart, isNameContinue, wordSymbol]

/-- A word is read as one symbol. -/
theorem scan_word {s : String} (hne : s.toList ≠ []) (h : ∀ c ∈ s.toList, isWordPart c = true) :
    scan s.toList = [.word s] := by
  rw [scan, scanAfter_of_word h, List.nil_append]
  cases hs : s.toList with
  | nil => exact absurd hs hne
  | cons c r => rw [wordSymbol, ← hs, String.ofList_toList]; simp

/-! ### Phrases -/

def wordType? (word : String) : Option TypeTree :=
  match Text.pieces '.' word with
  | [n] => some (if n = "null" then .null else .name n)
  | [space, n] => some (.member space n)
  | _ => none

theorem wordType?_null : wordType? "null" = some .null := by
  have hpieces : Text.pieces '.' "null" = ["null"] := by decide
  simp [wordType?, hpieces]

/-- An operand is what the brackets of an array bind to; members stand inside an object type. -/
inductive Phrase
  | operand | type | members

/-- The symbols are a phrase for the type. -/
inductive Reads : Phrase → List Symbol → TypeTree → Prop
  | word {w : String} {t : TypeTree} (h : wordType? w = some t) : Reads .operand [.word w] t
  | group {ts : List Symbol} {t : TypeTree} (h : Reads .type ts t) :
    Reads .operand (.mark '(' :: ts ++ [.mark ')']) t
  | array {ts : List Symbol} {t : TypeTree} (h : Reads .operand ts t) :
    Reads .operand (ts ++ [.mark '[', .mark ']']) (.array t)
  | object {ts : List Symbol} {members : List (String × TypeTree)} (h : Reads .members ts (.object members)) :
    Reads .operand (.mark '\x7b' :: ts ++ [.mark '\x7d']) (.object members)
  | operand {ts : List Symbol} {t : TypeTree} (h : Reads .operand ts t) : Reads .type ts t
  | either {ts us : List Symbol} {t u : TypeTree} (ht : Reads .type ts t) (hu : Reads .operand us u) :
    Reads .type (ts ++ .mark '|' :: us) (.either t u)
  | noMembers : Reads .members [] (.object [])
  | member {n : String} {ts us : List Symbol} {t : TypeTree} {members : List (String × TypeTree)}
    (ht : Reads .type ts t) (hmembers : Reads .members us (.object members)) :
    Reads .members (.word n :: .mark ':' :: ts ++ .mark ';' :: us) (.object ((n, t) :: members))

/-! ### One reading -/

/-- Where a reader stands: in front of an operand, behind one, behind the `[` that follows one, in front of
a member, or behind the name of one. `before` is the type in front of the last bar. -/
inductive Place
  | front (before : Option TypeTree)
  | behind (before : Option TypeTree) (operand : TypeTree)
  | opened (before : Option TypeTree) (operand : TypeTree)
  | members (before : Option TypeTree) (done : List (String × TypeTree))
  | named (before : Option TypeTree) (done : List (String × TypeTree)) (name : String)

/-- What is open around a place: a round bracket, or a member of an object type. -/
inductive Frame
  | group (before : Option TypeTree)
  | member (before : Option TypeTree) (done : List (String × TypeTree)) (name : String)

/-- A type with what stands in front of the last bar. -/
def joined (before : Option TypeTree) (t : TypeTree) : TypeTree :=
  match before with
  | some b => .either b t
  | none => t

def step : List Frame × Place → Symbol → Option (List Frame × Place)
  | (frames, .front b), .word w => (wordType? w).map fun t => (frames, .behind b t)
  | (frames, .front b), .mark '(' => some (.group b :: frames, .front none)
  | (frames, .front b), .mark '\x7b' => some (frames, .members b [])
  | (frames, .behind b t), .mark '[' => some (frames, .opened b t)
  | (frames, .opened b t), .mark ']' => some (frames, .behind b (.array t))
  | (frames, .behind b t), .mark '|' => some (frames, .front (some (joined b t)))
  | (.group b' :: frames, .behind b t), .mark ')' => some (frames, .behind b' (joined b t))
  | (frames, .members b done), .word n => some (frames, .named b done n)
  | (frames, .named b done n), .mark ':' => some (.member b done n :: frames, .front none)
  | (.member b' done n :: frames, .behind b t), .mark ';' =>
    some (frames, .members b' (done ++ [(n, joined b t)]))
  | (frames, .members b done), .mark '\x7d' => some (frames, .behind b (.object done))
  | _, _ => none

/-- What reading a phrase does, wherever it stands. -/
def Moves (ts : List Symbol) (t : TypeTree) : Phrase → Prop
  | .operand => ∀ frames b, ts.foldlM step (frames, .front b) = some (frames, .behind b t)
  | .type => ∀ frames, ∃ b u, joined b u = t ∧
    ts.foldlM step (frames, .front none) = some (frames, .behind b u)
  | .members => ∀ members, t = .object members → ∀ frames b done,
    ts.foldlM step (frames, .members b done) = some (frames, .members b (done ++ members))

/-- Reading goes through every phrase and ends with its type. -/
theorem Reads.moves {p : Phrase} {ts : List Symbol} {t : TypeTree} (h : Reads p ts t) : Moves ts t p := by
  -- on the phrase; a phrase leaves what is open around it as it was
  induction h with
  | word h =>
    intro frames b
    simp [step, h]
  | group _ ih =>
    intro frames b
    obtain ⟨b', u, rfl, hu⟩ := ih (.group b :: frames)
    simp [step, hu]
  | array _ ih =>
    intro frames b
    simp [List.foldlM_append, ih frames b, step]
  | object _ ih =>
    intro frames b
    simp [List.foldlM_append, step, ih _ rfl frames b []]
  | operand _ ih =>
    intro frames
    exact ⟨none, _, rfl, ih frames none⟩
  | either _ _ iht ihu =>
    intro frames
    obtain ⟨b, u, rfl, hu⟩ := iht frames
    refine ⟨some (joined b u), _, rfl, ?_⟩
    simpa [List.foldlM_append, hu, step] using ihu frames (some (joined b u))
  | noMembers =>
    intro members hmembers frames b done
    cases hmembers
    simp
  | @member n _ _ _ _ _ _ iht ihmembers =>
    intro members hmembers frames b done
    cases hmembers
    obtain ⟨b', u, rfl, hu⟩ := iht (.member b done n :: frames)
    have hrest := ihmembers _ rfl frames b (done ++ [(n, joined b' u)])
    simpa [List.foldlM_append, step, hu] using hrest

/-- A text has one reading. -/
theorem Reads.unique {ts : List Symbol} {t u : TypeTree} (ht : Reads .type ts t) (hu : Reads .type ts u) :
    t = u := by
  obtain ⟨b, t', rfl, hfirst⟩ := ht.moves []
  obtain ⟨c, u', rfl, hsecond⟩ := hu.moves []
  rw [hfirst] at hsecond
  cases hsecond
  rfl

end GraphDecl.TypeScript
