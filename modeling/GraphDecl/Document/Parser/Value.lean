import GraphDecl.Document.Definition
import GraphDecl.Document.Parser.Basic

/-!
Reading what definitions of every kind have in common: descriptions, type references, values,
directives, and the names of the kinds of operations. Values that may lie within selections are read with
the number of levels that are left for them.
-/

namespace GraphDecl.Parser

def description : Parser (Option String) := do
  match ← peek with
  | .string s =>
    advance
    return some s
  | .blockString s =>
    advance
    return some s
  | _ => return none

/-- Lists are limited as they are in values; the name inside them needs a level of its own. -/
def typeRef : Parser TypeRef :=
  limited (fun _ self => do
    if ← skip .bracketL then
      let t ← self
      expect .bracketR
      return .list t (← skip .bang)
    else
      let n ← expectName
      return .named n (← skip .bang)) (maxDepth + 1)

def variableName : Parser String := do
  expect .dollar
  expectName

def namedValue : String → Value
  | "true" => .boolean true
  | "false" => .boolean false
  | "null" => .null
  | n => .enum n

/-- A value, with `compound` for lists and objects. A constant one holds no variables. -/
def valueWith (constant : Bool) (compound : Parser Value) : Parser Value := do
  match ← peek with
  | .punctuator .bracketL | .punctuator .braceL => compound
  | .punctuator .dollar =>
    if constant then
      let place ← remaining
      advance
      match ← peek with
      | .name n => failAt place (.variableInConstant n)
      | _ => failAt place (.unexpected (.punctuator .dollar))
    else return .variable (← variableName)
  | .int s =>
    advance
    return .int s
  | .float s =>
    advance
    return .float s
  | .string s =>
    advance
    return .string s false
  | .blockString s =>
    advance
    return .string s true
  | .name n =>
    advance
    return namedValue n
  | _ => unexpected

def compoundValue (depth : Nat) (constant : Bool) : Parser Value :=
  limited (fun _ self => do
    if ← nextIs .bracketL then
      return .list (← anyBetween .bracketL .bracketR (valueWith constant self))
    else
      return .object (← anyBetween .braceL .braceR do
        let n ← expectName
        expect .colon
        return (n, ← valueWith constant self))) depth

def value (depth : Nat) (constant : Bool) : Parser Value :=
  valueWith constant (compoundValue depth constant)

def defaultValue : Parser (Option Value) := do
  if ← skip .equals then some <$> value maxDepth true else return none

def argument (depth : Nat) (constant : Bool) : Parser Argument := do
  let n ← expectName
  expect .colon
  let place ← remaining
  return ⟨n, ← value depth constant, place⟩

def arguments (depth : Nat) (constant : Bool) : Parser (List Argument) :=
  optionalBetween .parenL .parenR (argument depth constant)

def directives (depth : Nat) (constant : Bool) : Parser (List Directive) := whileNext .atSign do
  let place ← remaining
  expect .atSign
  let n ← expectName
  return ⟨n, ← arguments depth constant, place⟩

/-- Directives of a definition or a part of one, without variables. -/
def constantDirectives : Parser (List Directive) := directives maxDepth true

def operationKind : Parser OperationKind := do
  let place ← remaining
  let n ← expectName
  match OperationKind.ofText? n with
  | some k => return k
  | none => failAt place (.unexpected (.name n))

end GraphDecl.Parser
