import GraphDecl.Files.Archive
import GraphDecl.Output
import GraphDecl.Web.Url

/-!
Sources: what the texts of schemas and operations are loaded from. A source is a URL, or patterns
for files and archives.
-/

namespace GraphDecl

/-! ### What there is outside -/

inductive Reply
  | page (status : Nat) (text : String)
  | failure (reason : String)
  deriving DecidableEq, Repr

/-- Files, what URLs in normal form answer, and what becomes of tar archives and of templates. -/
structure World where
  tree : FileTree
  web : String → Reply
  untar : Archive.TarReader
  render : TemplateRenderer

/-- Tar archives and templates of a user's cannot be read. -/
def World.plain (tree : FileTree) (web : String → Reply) : World :=
  { tree, web
    untar := fun _ => .broken "no reader for tar archives"
    render := fun _ _ => throw (.failed "no reader for templates") }

@[simp] theorem World.plain_tree (tree : FileTree) (web : String → Reply) : (plain tree web).tree = tree := rfl

/-! ### Log -/

inductive Level
  | debug | info
  deriving DecidableEq, Repr

structure LogEntry where
  level : Level
  text : String
  deriving DecidableEq, Repr

namespace Source

def isUrl (source : String) : Bool :=
  ["http://", "https://"].any fun p => p.toList.isPrefixOf source.toList

/-- The text at a URL. Messages about answers have the URL as it is given. -/
def fetch (web : String → Reply) (url : String) : Except LoadError String := do
  let requested := (← (Url.parse url).mapError .url).requested
  match web requested.text with
  | .page code text =>
    if requested.scheme.isEmpty then throw (.url (.noScheme requested.text))
    else if 200 ≤ code ∧ code < 300 then return text
    else throw (.source (.status code url))
  | .failure reason => throw (.source (.request url reason))

def readPath (w : World) (path : String) : Except LoadError String :=
  if Archive.isArchive path then Archive.read w.untar w.tree path
  else (w.tree.readText path).mapError .file

/-- What a source is loaded from, piece by piece. -/
inductive Piece
  | url (url : String)
  | path (path : String)
  deriving DecidableEq, Repr

def Piece.logEntry : Piece → LogEntry
  | url u => ⟨.debug, "Fetching " ++ u⟩
  | path p => ⟨.debug, "Reading " ++ p⟩

def Piece.load (w : World) : Piece → Except LoadError String
  | url u => fetch w.web u
  | path p => readPath w p

/-- The pieces of a source. Patterns have to find something. -/
def pieces (w : World) (base source : String) : Except LoadError (List Piece) := do
  if isUrl source then return [.url source]
  else match ← (Glob.paths w.tree base source).mapError .file with
    | [] => throw (.source (.noMatch source base))
    | ps => return ps.map .path

/-- Work that leaves log entries, also if it fails. -/
abbrev Logged (ε α : Type) := ExceptT ε (StateM (List LogEntry)) α

def note {ε : Type} (entry : LogEntry) : Logged ε Unit := modify (· ++ [entry])

def loadPiece (w : World) (p : Piece) : Logged LoadError String := do
  note p.logEntry
  p.load w

def loadSource (w : World) (base source : String) : Logged LoadError (List String) := do
  let ps ← (pieces w base source : Except LoadError (List Piece))
  ps.mapM (loadPiece w)

/-- The texts of all sources in order, each on lines of its own. -/
def loadLogged (w : World) (base : String) (sources : List String) : Logged LoadError String := do
  let texts ← sources.mapM (loadSource w base)
  return Text.joinWith "\n" texts.flatten

def load (w : World) (base : String) (sources : List String) : Except LoadError String :=
  ((loadLogged w base sources).run.run []).1

end Source

end GraphDecl
