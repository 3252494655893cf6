import GraphDecl.CommandLine.Help
import GraphDecl.CommandLine.Terminal
import GraphDecl.Options
import GraphDecl.Output
import GraphDecl.Source

/-!
Running the program: arguments, files and URLs in; text for the terminal, log entries and changed files
out. The run ends by itself, with an error message, or where a file or URL makes it break off.
-/

namespace GraphDecl.CommandLine

/-- What a run has shown, noted and changed so far. A verbose run also notes what is for debugging. -/
structure Progress where
  verbose : Bool
  output : String
  log : List LogEntry
  tree : FileTree

/-- What the program has no message of its own for. -/
inductive Crash
  | file (error : FileError)
  | url (fault : UrlFault)
  | template (reason : String)
  deriving DecidableEq, Repr

def Crash.message : Crash → String
  | file error => error.message
  | url fault => fault.message
  | template reason => reason

/-- Why a run ends early. -/
inductive Stop
  /-- With a last text and an exit code. -/
  | exit (text : String) (code : Nat)
  | crash (cause : Crash)

abbrev Run (α : Type) := ExceptT Stop (StateM Progress) α

structure Outcome where
  exitCode : Nat
  output : String
  log : List LogEntry
  tree : FileTree
  crash : Option Crash

def shown (text : String) : String := String.ofList (plainText text.toList)

def echo (line : String) : Run Unit :=
  modify fun p => { p with output := p.output ++ shown line ++ "\n" }

def logEntry (e : LogEntry) : Run Unit :=
  modify fun p => if p.verbose || e.level ≠ .debug then { p with log := p.log ++ [e] } else p

def logEntries (es : List LogEntry) : Run Unit := es.forM logEntry

def Stop.error (message : String) : Stop := .exit ("Error: " ++ message ++ "\n") 1

def stopWith {α : Type} (message : String) : Run α := throw (.error message)

/-! ### Wrong usage -/

inductive Command
  | program | compile
  deriving DecidableEq, Repr

def Command.usage : Command → List String
  | program => programUsage ++ ["Try 'main --help' for help."]
  | compile => compileUsage ++ ["Try 'main compile --help' for help."]

def usageError {α : Type} (c : Command) (message : String) : Run α :=
  throw (.exit (String.join ((c.usage ++ ["", "Error: " ++ message]).map (· ++ "\n"))) 2)

/-- An option without its value stands alone, without the usage. -/
def argumentError {α : Type} (c : Command) : ArgumentError → Run α
  | .noSuchOption n near => usageError c (ArgumentError.noSuchOption n near).message
  | e => throw (.exit ("Error: " ++ e.message ++ "\n") 2)

def parsed {α : Type} (c : Command) : Except ArgumentError (Parsed α) → Run (Parsed α)
  | .ok p => return p
  | .error e => argumentError c e

def invalidValue {α : Type} (o : CompileOption) (message : String) : Run α :=
  usageError .compile ("Invalid value for " ++ o.label ++ ": " ++ message)

/-! ### The options of a compilation -/

def given (options : List (CompileOption × String)) (o : CompileOption) : List String :=
  options.filterMap fun (k, v) => if k = o then some v else none

/-- The value that counts of those given for an option. -/
def last? (options : List (CompileOption × String)) (o : CompileOption) : Option String :=
  (given options o).getLast?

/-- A path to a directory: not to a file and, if `needed`, to something. -/
def checkDirectory (t : FileTree) (cwd : String) (o : CompileOption) (needed : Bool)
    (path : String) : Run Unit :=
  match t.node (PathText.join cwd path) with
  | .error .nullInPath => throw (.crash (.file .nullInPath))
  | .ok n =>
    if path.isEmpty then missing
    else if !n.isDirectory then invalidValue o ("Directory " ++ Text.quoted path ++ " is a file.")
    else return
  | .error _ => missing
where
  missing : Run Unit :=
    if needed then invalidValue o ("Directory " ++ Text.quoted path ++ " does not exist.") else return

/-- Checks the value of an option that takes no arbitrary text. -/
def checkValue (t : FileTree) (cwd : String) (o : CompileOption) (value : String) : Run Unit :=
  match o with
  | .output => checkDirectory t cwd o false value
  | .basePath | .templateDir => checkDirectory t cwd o true value
  | .display =>
    if (DisplayOrder.ofText? value).isSome then return
    else invalidValue o (Text.quoted value ++ " is not one of 'as-is', 'default'.")
  | _ => return

/-- Checks the options in the order in which they are first given, then looks for missing ones. -/
def checkOptions (t : FileTree) (cwd : String) (options : List (CompileOption × String)) :
    Run Unit := do
  for o in (options.map (·.1)).eraseDups do
    match last? options o with
    | some v => checkValue t cwd o v
    | none => return
  for o in [CompileOption.schema, .output] do
    if (given options o).isEmpty then usageError .compile ("Missing option " ++ o.label ++ ".")

/-- The values that the options stand for. Paths are resolved from the working directory. -/
def settings (cwd : String) (options : List (CompileOption × String)) : Options.Settings :=
  let text (name : String) (o : CompileOption) : Options.Settings :=
    ((last? options o).map fun v => (name, Setting.text v)).toList
  let path (o : CompileOption) : Setting :=
    .text (PathText.resolve cwd ((last? options o).getD ""))
  [ ("schema", .list ((given options .schema).map .text))
  , ("operations", .list ((given options .operations).map .text))
  , ("output_path", path .output), ("base_path", path .basePath) ]
  ++ text "display" .display ++ text "schema_file_name" .schemaFileName
  ++ text "operations_file_name" .operationsFileName ++ text "template_dir" .templateDir
  ++ text "header" .header

/-! ### Compiling -/

def typeEntries (types : List NamedType) : List LogEntry :=
  types.filterMap (fun t => match t.content with
    | .enum _ => some ⟨.debug, "Processing enum: " ++ t.name⟩
    | .object _ | .interface _ => some ⟨.debug, "Processing object: " ++ t.name⟩
    | .inputObject _ => some ⟨.debug, "Processing input: " ++ t.name⟩
    | _ => none)
  ++ [⟨.debug, "Extracted " ++ toString types.length ++ " named types"⟩]

def operationEntry (d : OperationDefinition) : List LogEntry :=
  (d.name.map fun n => (⟨.debug, "Processing " ++ d.kind.text ++ ": " ++ n⟩ : LogEntry)).toList

/-- Entries about the operations up to the first that cannot be compiled. -/
def passageEntries (s : Schema) : List Passage → List LogEntry
  | [] => []
  | p :: ps =>
    let own := p.definition.operation?.toList.flatMap operationEntry
    match compileDefinition s "" p.definition with
    | .ok _ => own ++ passageEntries s ps
    | .error _ => own

def documentEntries (s : Schema) (text : String) : List LogEntry :=
  match isBlankDocument text, parseDocument text with
  | .ok false, .ok ps =>
    passageEntries s ps ++ match compilePassages s text ps with
      | .ok ops => [⟨.debug, "Compiled " ++ toString ops.length ++ " operations"⟩]
      | .error _ => []
  | _, _ => []

def loadSources (w : World) (base : String) (sources : List String) : Run String := do
  let (result, entries) := (Source.loadLogged w base sources).run.run []
  logEntries entries
  match result with
  | .ok text => return text
  | .error (.source e) => stopWith e.message
  | .error (.file e) => throw (.crash (.file e))
  | .error (.url fault) => throw (.crash (.url fault))

def build (text : String) : Run Schema :=
  match buildSchema text with
  | .ok s => return s
  | .error (.syntaxError e) => stopWith (e.report text)
  | .error (.invalid faults) => stopWith ("Invalid schema: " ++ faultsMessage faults)
  | .error (.unresolved fault) =>
    stopWith ((if fault.isArgument then "" else "Invalid schema: ") ++ fault.report text)

def compileText (s : Schema) (o : Options) (text : String) : Run Compilation := do
  logEntries (typeEntries (s.inOrder o.display) ++ documentEntries s text)
  match compile s o.display text with
  | .ok c => return c
  | .error (.syntaxError e) => stopWith (e.report text)
  | .error (.compile e) => stopWith e.message

/-- How a run ends whose files cannot be written. -/
def stopOf : WriteFault → Stop
  | .file e => .crash (.file e)
  | .template (.reported message) => .error message
  | .template (.failed reason) => .crash (.template reason)

def onTree {α : Type} (a : WriteAction α) : Run α := do
  let (result, t) := a.run.run (← get).tree
  modify fun p => { p with tree := t }
  match result with
  | .ok x => return x
  | .error e => throw (stopOf e)

def templatesOf (cwd : String) (o : Options) : Option String := o.templateDir.map (PathText.join cwd)

def writeFiles (w : World) (cwd : String) (o : Options) (c : Compilation) : Run (List String) := do
  let layout : Layout := ⟨o.outputPath, o.schemaFileName, o.operationsFileName, o.header⟩
  onTree ((FileAction.makeDirectory o.outputPath).adapt .file)
  (layout.sheets c).mapM fun sheet => do
    let path ← onTree (layout.writeSheet w.render (templatesOf cwd o) sheet)
    logEntry ⟨.info, "Writing data to '" ++ path ++ "'"⟩
    return path

def compileSources (w : World) (cwd : String) (o : Options) : Run Unit := do
  let verbose := (← get).verbose
  if verbose then
    echo ("Base path: " ++ o.basePath)
    echo ("Output: " ++ o.outputPath)
  echo "Loading sources..."
  let schemaText ← loadSources w o.basePath o.schemaSources
  let operationsText ←
    if o.operations.isEmpty then pure "" else loadSources w o.basePath o.operations
  echo "Compiling..."
  let schema ← build schemaText
  let c ← compileText schema o operationsText
  if verbose then
    echo ("  Scalars: " ++ toString c.counts.scalars)
    echo ("  Enums: " ++ toString c.counts.enums)
    echo ("  Unions: " ++ toString c.counts.unions)
    echo ("  Entities: " ++ toString c.counts.entities)
    echo ("  Operations: " ++ toString c.operations.length)
  echo "Generating code..."
  let written ← writeFiles w cwd o c
  echo ("Done! Generated " ++ toString written.length ++ " file(s) in " ++ o.outputPath)

/-- The command takes no arguments beside its options. -/
def refuseExtra : List String → Run Unit
  | [] => pure ()
  | [extra] => usageError .compile ("Got unexpected extra argument (" ++ extra ++ ")")
  | extras => usageError .compile
      ("Got unexpected extra arguments (" ++ Text.joinWith " " extras ++ ")")

def runCompile (w : World) (cwd : String) (args : List String) : Run Unit := do
  let p ← parsed .compile (parseArguments compileOptions true none args)
  if p.options.any (·.1 == .help) then throw (.exit compileHelp 0)
  checkOptions w.tree cwd p.options
  refuseExtra p.rest
  let verbose := p.options.any (·.1 == .verbose)
  modify fun progress => { progress with verbose }
  let values := settings cwd p.options
  match Options.check values with
  | .error faults => stopWith (Options.faultsReport values faults)
  | .ok o => compileSources w cwd o

/-- Reads the options of the program itself; the first one ends the run. -/
def programArguments (args : List String) : Run (List String) := do
  let p ← parsed .program (parseArguments programOptions false none args)
  match p.options with
  | (.version, _) :: _ => throw (.exit versionText 0)
  | (.help, _) :: _ => throw (.exit programHelp 0)
  | [] => return p.rest

def runProgram (w : World) (cwd : String) (args : List String) : Run Unit := do
  if args.isEmpty then throw (.exit programHelp 2)
  match ← programArguments args with
  | [] => usageError .program "Missing command."
  | "compile" :: rest => runCompile w cwd rest
  | name :: rest =>
    -- A name that looks like an option is looked at as one first.
    if looksLikeOption name then discard (programArguments (name :: rest))
    usageError .program ("No such command " ++ Text.quoted name ++ ".")

/-- Runs the program in the working directory `cwd`. -/
def run (w : World) (cwd : String) (args : List String) : Outcome :=
  let (result, p) := (runProgram w cwd args).run.run ⟨false, "", [], w.tree⟩
  let lines (s : String) := String.ofList (dropReturns s.toList)
  match result with
  | .ok () => ⟨0, lines p.output, p.log, p.tree, none⟩
  | .error (.exit text code) => ⟨code, lines (p.output ++ shown text), p.log, p.tree, none⟩
  | .error (.crash e) => ⟨1, lines p.output, p.log, p.tree, some e⟩

end GraphDecl.CommandLine
