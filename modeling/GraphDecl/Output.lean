import GraphDecl.Files.Tree
import GraphDecl.Rendering.OperationsFile

/-!
The files that a compilation is written to: one for the schema, and one for the operations if there
are any. They are rendered from templates. Those of a user's come before the ones that are built in,
and it is left to a renderer from outside what they come to.
-/

namespace GraphDecl

/-! ### Templates -/

inductive Sheet
  | schema (types : List Declaration) (header : Option String)
  /-- `module` is where operations find the declarations of the schema. -/
  | operations (compilation : Compilation) (module : String) (header : Option String)

namespace Sheet

def templateName : Sheet → String
  | schema .. => "schema.ts.j2"
  | operations .. => "operations.ts.j2"

def text : Sheet → String
  | schema types header => Rendering.schemaFile types header
  | operations c module header => Rendering.operationsFile c module header

end Sheet

/-- The parts of which both built-in templates are put together. -/
def macrosName : String := "_macros.ts.j2"

/-- Whether a directory has something that comes before the built-in template for a sheet. -/
def overrides (t : FileTree) (directory : String) (x : Sheet) : Bool :=
  [x.templateName, macrosName].any fun n => t.isFile (PathText.join directory n)

/-- Why a template of a user's gives no text. -/
inductive TemplateFault
  /-- An error of the kinds that the program reports, which the template can bring about itself. -/
  | reported (message : String)
  | failed (reason : String)
  deriving DecidableEq, Repr

/-- What templates in a directory give for a sheet. They may also do something to the files. -/
abbrev TemplateRenderer := (directory : String) → Sheet → ExceptT TemplateFault (StateM FileTree) String

/-- The text for a sheet. The directory with templates of a user's is optional. -/
def Sheet.render (render : TemplateRenderer) (templates : Option String) (x : Sheet) :
    ExceptT TemplateFault (StateM FileTree) String := do
  match templates with
  | some directory => if overrides (← get) directory x then render directory x else return x.text
  | none => return x.text

/-! ### Files -/

structure Layout where
  directory : String
  schemaFileName : String
  operationsFileName : String
  header : Option String
  deriving DecidableEq, Repr

namespace Layout

/-- The module name under which operations find the declarations of the schema. -/
def schemaModule (l : Layout) : String := PathText.stem l.schemaFileName

def schemaText (l : Layout) (c : Compilation) : String := Rendering.schemaFile c.types l.header

def operationsText (l : Layout) (c : Compilation) : String :=
  Rendering.operationsFile c l.schemaModule l.header

/-- The names of the files and what is rendered into them, in the order in which they are written. -/
def sheets (l : Layout) (c : Compilation) : List (String × Sheet) :=
  (l.schemaFileName, .schema c.types l.header)
  :: if c.operations.isEmpty then []
    else [(l.operationsFileName, .operations c l.schemaModule l.header)]

/-- The names and texts of the files that are rendered from built-in templates. -/
def files (l : Layout) (c : Compilation) : List (String × String) :=
  (l.schemaFileName, l.schemaText c)
  :: if c.operations.isEmpty then [] else [(l.operationsFileName, l.operationsText c)]

def writeFile (l : Layout) (file : String × String) : FileAction String := do
  let path := PathText.join l.directory file.1
  FileAction.makeDirectory (PathText.parent path)
  FileAction.writeText path file.2
  return path

/-- Writes all files and returns their paths. -/
def write (l : Layout) (c : Compilation) : FileAction (List String) := do
  FileAction.makeDirectory l.directory
  (l.files c).mapM l.writeFile

end Layout

/-! ### Files from templates -/

inductive WriteFault
  | file (error : FileError)
  | template (fault : TemplateFault)
  deriving DecidableEq, Repr

abbrev WriteAction (α : Type) := ExceptT WriteFault (StateM FileTree) α

namespace Layout

variable (render : TemplateRenderer) (templates : Option String)

/-- Renders a sheet and writes its file. The templates are those that are there at that moment. -/
def writeSheet (l : Layout) (sheet : String × Sheet) : WriteAction String := do
  let text ← (sheet.2.render render templates).adapt .template
  (l.writeFile (sheet.1, text)).adapt .file

/-- Renders and writes all files and returns their paths. -/
def generate (l : Layout) (c : Compilation) : WriteAction (List String) := do
  (FileAction.makeDirectory l.directory).adapt .file
  (l.sheets c).mapM (l.writeSheet render templates)

end Layout

end GraphDecl
