import GraphDecl.CommandLine.Arguments

/-!
The options of the program and of its command, and the texts that explain them.
-/

namespace GraphDecl.CommandLine

inductive ProgramOption
  | version | help
  deriving DecidableEq, Repr

def programOptions : List (OptionSpec ProgramOption) :=
  [⟨.version, "--version", none, false⟩, ⟨.help, "--help", none, false⟩]

inductive CompileOption
  | schema | operations | output | display | basePath | schemaFileName | operationsFileName
  | templateDir | header | verbose | help
  deriving DecidableEq, Repr

def compileOptions : List (OptionSpec CompileOption) :=
  [ ⟨.schema, "--schema", some 's', true⟩
  , ⟨.operations, "--operations", some 'q', true⟩
  , ⟨.output, "--output", some 'o', true⟩
  , ⟨.display, "--display", none, true⟩
  , ⟨.basePath, "--base-path", none, true⟩
  , ⟨.schemaFileName, "--schema-file-name", none, true⟩
  , ⟨.operationsFileName, "--operations-file-name", none, true⟩
  , ⟨.templateDir, "--template-dir", none, true⟩
  , ⟨.header, "--header", none, true⟩
  , ⟨.verbose, "--verbose", some 'v', false⟩
  , ⟨.help, "--help", none, false⟩ ]

def CompileOption.label (o : CompileOption) : String :=
  match compileOptions.find? (·.key == o) with
  | some s => match s.short with
    | some c => "'" ++ s.long ++ "' / '-" ++ String.ofList [c] ++ "'"
    | none => "'" ++ s.long ++ "'"
  | none => ""

def versionText : String := "main, version 0.1.0\n"

private def joined (lines : List String) : String := String.join (lines.map (· ++ "\n"))

def programUsage : List String := ["Usage: main [OPTIONS] COMMAND [ARGS]..."]

def compileUsage : List String := ["Usage: main compile [OPTIONS]"]

def programHelp : String := joined (programUsage ++
  [ ""
  , "  GraphQL to TypeScript compiler."
  , ""
  , "  Generate TypeScript declarations from GraphQL schemas and operations."
  , ""
  , "Options:"
  , "  --version  Show the version and exit."
  , "  --help     Show this message and exit."
  , ""
  , "Commands:"
  , "  compile  Compile a GraphQL schema and its operations to TypeScript." ])

def compileHelp : String := joined (compileUsage ++
  [ ""
  , "  Compile a GraphQL schema and its operations to TypeScript."
  , ""
  , "  Examples:"
  , ""
  , "      gql-tsgen compile --schema ./schema.graphql --output ./generated"
  , ""
  , "      gql-tsgen compile -s \"schema/*.graphql\" -q \"src/**/*.graphql\" -o ./src/gql"
  , ""
  , "      gql-tsgen compile -s https://example.com/schema.graphql -o ./generated"
  , "      --display as-is"
  , ""
  , "Options:"
  , "  -s, --schema TEXT            Schema source: glob pattern(s) separated by"
  , "                               commas, URL, or archive (.zip, .tar.gz, .tgz)."
  , "                               May be repeated.  [required]"
  , "  -q, --operations TEXT        Operations source: glob pattern(s) separated by"
  , "                               commas, or URL. May be repeated."
  , "  -o, --output DIRECTORY       Output directory for generated code.  [required]"
  , "  --display [as-is|default]    Declaration order: source order (as-is) or"
  , "                               grouped by kind (default).  [default: default]"
  , "  --base-path DIRECTORY        Directory relative patterns are resolved against"
  , "                               (default: current directory)."
  , "  --schema-file-name TEXT      [default: schema.ts]"
  , "  --operations-file-name TEXT  [default: operations.ts]"
  , "  --template-dir DIRECTORY     Directory with Jinja2 templates overriding the"
  , "                               built-in ones."
  , "  --header TEXT                Banner put at the top of every generated file."
  , "  -v, --verbose                Enable verbose output."
  , "  --help                       Show this message and exit." ])

end GraphDecl.CommandLine
