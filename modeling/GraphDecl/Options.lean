import GraphDecl.Declaration
import GraphDecl.Files.PathText
import GraphDecl.Setting
import GraphDecl.Text.Cutting

/-!
The options of a compilation, and the checks that values have to pass to become options. All faults
are reported, in the order of the options.
-/

namespace GraphDecl

structure Options where
  schemaSources : List String
  operations : List String
  outputPath : String
  basePath : String
  display : DisplayOrder
  schemaFileName : String
  operationsFileName : String
  templateDir : Option String
  header : Option String
  deriving DecidableEq, Repr

def DisplayOrder.text : DisplayOrder → String
  | asIs => "as-is"
  | byKind => "default"

def DisplayOrder.ofSetting (v : Setting) : Except UnknownChoice DisplayOrder :=
  match v.text?.bind ofText? with
  | some d => .ok d
  | none => .error ⟨v, "DisplayType"⟩

def OperationKind.ofSetting (v : Setting) : Except UnknownChoice OperationKind :=
  match v.text?.bind ofText? with
  | some k => .ok k
  | none => .error ⟨v, "OperationType"⟩

inductive OptionProblem
  | missing | notList | notText | notPath | notChoice
  | noSource
  | badEnding (name : String)
  | hasDirectory (name : String)
  deriving DecidableEq, Repr

namespace OptionProblem

def kind : OptionProblem → String
  | missing => "missing"
  | notList => "list_type"
  | notText => "string_type"
  | notPath => "path_type"
  | notChoice => "enum"
  | noSource | badEnding _ | hasDirectory _ => "value_error"

/-- The message for a value of the right type that does not do. -/
def message? : OptionProblem → Option String
  | noSource => some "Value error, At least one schema source is required"
  | badEnding n => some ("Value error, Output file name must end with .ts: " ++ n)
  | hasDirectory n => some ("Value error, Output file name must not contain directories: " ++ n)
  | _ => none

end OptionProblem

structure OptionFault where
  option : String
  item : Option Nat
  problem : OptionProblem
  deriving DecidableEq, Repr

namespace Options

abbrev Checked (α : Type) := Except (List OptionFault) α

def faults {α : Type} : Checked α → List OptionFault
  | .ok _ => []
  | .error fs => fs

/-! ### Single values -/

def checkText (option : String) : Setting → Checked String
  | .text s => .ok s
  | _ => .error [⟨option, none, .notText⟩]

def checkPath (option : String) : Setting → Checked String
  | .text s => .ok (PathText.normal s)
  | _ => .error [⟨option, none, .notPath⟩]

def checkOptional {α : Type} (check : Setting → Checked α) : Setting → Checked (Option α)
  | .null => .ok none
  | v => some <$> check v

def checkTexts (option : String) : Setting → Checked (List String)
  | .list items =>
    let wrong := items.zipIdx.filterMap fun (v, i) =>
      if v.text?.isNone then some ⟨option, some i, .notText⟩ else none
    if wrong.isEmpty then .ok (items.filterMap (·.text?)) else .error wrong
  | _ => .error [⟨option, none, .notList⟩]

def checkDisplay (option : String) (v : Setting) : Checked DisplayOrder :=
  match DisplayOrder.ofSetting v with
  | .ok d => .ok d
  | .error _ => .error [⟨option, none, .notChoice⟩]

/-- Blank sources do not count. -/
def checkSources (option : String) (v : Setting) : Checked (List String) := do
  let sources := (← checkTexts option v).filter (!Text.allBlank ·)
  if sources.isEmpty then throw [⟨option, none, .noSource⟩] else return sources

/-- File names end in `.ts`, with something in front of it, and lead into no directory. -/
def checkFileName (option : String) (v : Setting) : Checked String := do
  let name ← checkText option v
  if !".ts".toList.isSuffixOf name.toList || name == ".ts" then throw [⟨option, none, .badEnding name⟩]
  else if PathText.name name ≠ name then throw [⟨option, none, .hasDirectory name⟩]
  else return name

/-! ### All options -/

abbrev Settings := List (String × Setting)

def required {α : Type} (given : Settings) (option : String) (check : String → Setting → Checked α) :
    Checked α :=
  match given.lookup option with
  | some v => check option v
  | none => .error [⟨option, none, .missing⟩]

def optional {α : Type} (given : Settings) (option : String) (default : α)
    (check : String → Setting → Checked α) : Checked α :=
  match given.lookup option with
  | some v => check option v
  | none => .ok default

/-- The sources of the schema have two names, of which the short one comes first. -/
def sourcesOption (given : Settings) : String :=
  if (given.lookup "schema").isNone && (given.lookup "schema_sources").isSome then "schema_sources"
  else "schema"

/-- Checks the options that are given. Others than these are left alone. -/
def check (given : Settings) : Checked Options :=
  let schema := required given (sourcesOption given) checkSources
  let operations := optional given "operations" [] checkTexts
  let output := required given "output_path" checkPath
  let base := required given "base_path" checkPath
  let display := optional given "display" .byKind checkDisplay
  let schemaFile := optional given "schema_file_name" "schema.ts" checkFileName
  let operationsFile := optional given "operations_file_name" "operations.ts" checkFileName
  let template := optional given "template_dir" none fun o => checkOptional (checkPath o)
  let header := optional given "header" none fun o => checkOptional (checkText o)
  match schema, operations, output, base, display, schemaFile, operationsFile, template, header with
  | .ok schema, .ok operations, .ok output, .ok base, .ok display, .ok schemaFile,
      .ok operationsFile, .ok template, .ok header =>
    .ok ⟨schema, operations, output, base, display, schemaFile, operationsFile, template, header⟩
  | _, _, _, _, _, _, _, _, _ =>
    .error (faults schema ++ faults operations ++ faults output ++ faults base ++ faults display
      ++ faults schemaFile ++ faults operationsFile ++ faults template ++ faults header)

/-! ### Reports -/

/-- The text of a value in a report: of one longer than 50 bytes, the middle is left out. -/
def shortened (s : String) : String :=
  if s.utf8ByteSize ≤ 50 then s
  else
    let front := s.toList.foldl (fun (n, cs) c =>
      if n + c.utf8Size ≤ 25 then (n + c.utf8Size, c :: cs) else (26, cs)) (0, [])
    let back := s.toList.foldr (fun c (n, cs) =>
      if n + c.utf8Size ≤ 24 then (n + c.utf8Size, c :: cs) else (25, cs)) (0, [])
    String.ofList front.2.reverse ++ "..." ++ String.ofList back.2

def typeLabel : Setting → String
  | .null => "NoneType"
  | .bool _ => "bool"
  | .int _ => "int"
  | .text _ => "str"
  | .list _ => "list"
  | .record _ => "dict"

/-- A fault on two lines: the option, then what is wrong with its value. -/
def faultReport (given : Settings) (f : OptionFault) : String :=
  let value := (given.lookup f.option).getD .null
  f.option ++ "\n  " ++ f.problem.message?.getD "" ++ " [type=" ++ f.problem.kind ++ ", input_value="
  ++ shortened value.shown ++ ", input_type=" ++ typeLabel value ++ "]"

def faultsReport (given : Settings) (fs : List OptionFault) : String :=
  let count := if fs.length = 1 then "1 validation error" else toString fs.length ++ " validation errors"
  Text.joinWith "\n" ((count ++ " for CompileOptions") :: fs.map (faultReport given))

end Options

end GraphDecl
