import GraphDecl.Document.Parser.Value

/-!
Reading operations and fragments.
-/

namespace GraphDecl.Parser

/-- A name that is not `on`. -/
def fragmentName : Parser String := do
  if (← peek).value? == some "on" then unexpected else expectName

def field (depth : Nat) (selections : Parser (List Selection)) : Parser Selection := do
  let first ← expectName
  let labelled ← skip .colon
  let name ← if labelled then expectName else pure first
  let args ← arguments depth false
  let dirs ← directives depth false
  let below ← if ← nextIs .braceL then some <$> selections else pure none
  return .field (if labelled then some first else none) name args dirs below

def spread (depth : Nat) (selections : Parser (List Selection)) : Parser Selection := do
  expect .spread
  if ← skipKeyword "on" then
    let condition ← expectName
    let dirs ← directives depth false
    return .inline (some condition) dirs (← selections)
  else match ← peek with
    | .name _ =>
      let n ← fragmentName
      return .spread n (← directives depth false)
    | _ =>
      let dirs ← directives depth false
      return .inline none dirs (← selections)

def selectionSet : Parser (List Selection) :=
  limited (fun depth self =>
    manyBetween .braceL .braceR do
      if ← nextIs .spread then spread depth self else field depth self) maxDepth

def variableDefinition : Parser VariableDefinition := do
  let about ← description
  let n ← variableName
  expect .colon
  let t ← typeRef
  let d ← defaultValue
  return ⟨about, n, t, d, ← constantDirectives⟩

def operationDefinition : Parser OperationDefinition := do
  if ← nextIs .braceL then return ⟨none, .query, none, [], [], ← selectionSet⟩
  else
    let about ← description
    let kind ← operationKind
    let name ← match ← peek with
      | .name _ => some <$> expectName
      | _ => pure none
    let vars ← optionalBetween .parenL .parenR variableDefinition
    let dirs ← directives maxDepth false
    return ⟨about, kind, name, vars, dirs, ← selectionSet⟩

def fragmentDefinition : Parser FragmentDefinition := do
  let about ← description
  expectKeyword "fragment"
  let n ← fragmentName
  expectKeyword "on"
  let condition ← expectName
  let dirs ← directives maxDepth false
  return ⟨about, n, condition, dirs, ← selectionSet⟩

end GraphDecl.Parser
