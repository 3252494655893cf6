import GraphDecl.Document.Parser.Operation
import GraphDecl.Document.Parser.TypeSystem

/-!
Reading whole documents: the definitions of a text, each with the part of the text that it takes up.
-/

namespace GraphDecl

namespace Parser

/-- A definition with the keyword `word`; a description may stand in front. -/
def definitionOf? (word : String) : Option (Parser Definition) :=
  match word with
  | "schema" => some (.schema <$> schemaDefinition)
  | "directive" => some (.directive <$> directiveDefinition)
  | "fragment" => some (.fragment <$> fragmentDefinition)
  | _ =>
    if (OperationKind.ofText? word).isSome then some (.operation <$> operationDefinition)
    else (typeKind? word).map fun k => .type <$> typeDefinition k

/-- With a description in front, the kind of definition shows at the second token. -/
def definition : Parser Definition := do
  let place ← remaining
  match ← peek with
  | .punctuator .braceL => .operation <$> operationDefinition
  | .string _ | .blockString _ =>
    match ← peekSecond with
    | .punctuator .braceL => fail .shorthandDescription
    | .name n => match definitionOf? n with
      | some p => p
      | none => fail .uselessDescription
    | t => failAt (place - 1) (.unexpected t)
  | .name n => match definitionOf? n with
    | some p => p
    | none => if n == "extend" then extension else unexpected
  | _ => unexpected

def countedDefinition : Parser (Definition × Nat × Nat) := do
  let before ← remaining
  let d ← definition
  return (d, before, ← remaining)

/-- At least one definition, up to the end. -/
def document : Parser (List (Definition × Nat × Nat)) := do
  checkNext
  nested fun self => do
    let d ← countedDefinition
    if (← peek) == .eof then return [d] else return d :: (← self)

def wholeTypeRef : Parser TypeRef := do
  checkNext
  let t ← typeRef
  match ← peek with
  | .eof => return t
  | found => fail (.expected "<EOF>" found)

end Parser

/-! ### Texts -/

/-- A definition and the part of its text, from its first token to its last one, that it takes up. -/
structure Passage where
  definition : Definition
  start : Nat
  stop : Nat
  deriving Repr

/-- The characters of a text from offset `start` up to, and without, `stop`. -/
def slice (text : String) (start stop : Nat) : String :=
  String.ofList ((text.toList.drop start).take (stop - start))

/-- The place of the token with which the last `remaining` tokens of a text start. -/
def placeOf (text : String) (remaining : Nat) : Location :=
  let places := (lexemes text).toArray
  locate text ((places[places.size - remaining]?.map (·.start)).getD 0)

def ParseFault.locate (text : String) (f : ParseFault) : SyntaxError :=
  ⟨f.fault, placeOf text f.remaining⟩

def parseDocument (text : String) : Except SyntaxError (List Passage) :=
  let places := (lexemes text).toArray
  match Parser.document (.ofList (tokens text)) with
  | .error f => .error (f.locate text)
  | .ok (ds, _) => .ok (ds.map fun (d, before, after) =>
      { definition := d
        start := (places[places.size - before]?.map (·.start)).getD 0
        stop := (places[places.size - after - 1]?.map (·.stop)).getD 0 })

def parseTypeRef (text : String) : Except SyntaxError TypeRef :=
  match Parser.wholeTypeRef (.ofList (tokens text)) with
  | .error f => .error (f.locate text)
  | .ok (t, _) => .ok t

/-- Whether a text holds no tokens. A first token that is none is a fault. -/
def isBlankDocument (text : String) : Except SyntaxError Bool :=
  match lexemes text with
  | ⟨.invalid e, start, _⟩ :: _ => .error ⟨.lexical e, locate text start⟩
  | ⟨t, _, _⟩ :: _ => .ok (t == .eof)
  | [] => .ok true

end GraphDecl
