import GraphDecl.Files.ArchiveFault
import GraphDecl.Files.PathText

/-!
Trees of files and directories, and what can be done with them: reading, listing, making directories,
writing files. Paths are absolute; every component but the last has to lead to a directory.
-/

namespace GraphDecl

inductive Node
  | file (data : ByteArray)
  | directory (entries : List (String × Node))
  deriving Inhabited

inductive FileError
  | notFound | notDirectory | isDirectory | alreadyExists | nameTooLong
  /-- A path holds a character of code 0. -/
  | nullInPath
  /-- The bytes of a file are no text. -/
  | undecodable
  | archive (fault : ArchiveFault)
  /-- A tar archive cannot be unpacked. -/
  | tar (reason : String)
  | unsupportedArchive (suffix : String)
  deriving DecidableEq, Repr

def FileError.message : FileError → String
  | notFound => "No such file or directory"
  | notDirectory => "Not a directory"
  | isDirectory => "Is a directory"
  | alreadyExists => "File exists"
  | nameTooLong => "File name too long"
  | nullInPath => "embedded null byte"
  | undecodable => "File is not UTF-8 text"
  | archive fault => fault.message
  | tar reason => reason
  | unsupportedArchive suffix => "Unsupported archive format: " ++ suffix

namespace Node

def isDirectory : Node → Bool
  | directory _ => true
  | file _ => false

def at? : Node → List String → Option Node
  | n, [] => some n
  | file _, _ :: _ => none
  | directory entries, c :: cs =>
    match entries.lookup c with
    | some n => n.at? cs
    | none => none

/-- Entries with one of them set; a new one comes last. -/
def setEntry (name : String) (n : Node) : List (String × Node) → List (String × Node)
  | [] => [(name, n)]
  | (m, old) :: rest => if m = name then (m, n) :: rest else (m, old) :: setEntry name n rest

/-- Puts a node where names lead to; below a file nothing changes. -/
def put : Node → List String → Node → Node
  | _, [], n => n
  | file c, _ :: _, _ => file c
  | directory entries, c :: cs, n =>
    directory (setEntry c (((entries.lookup c).getD (directory [])).put cs n) entries)

mutual

/-- The files below a node, each with its path, which starts with `here`. -/
def files (here : String) : Node → List (String × ByteArray)
  | file c => [(here, c)]
  | directory entries => entryFiles here entries

def entryFiles (here : String) : List (String × Node) → List (String × ByteArray)
  | [] => []
  | (name, n) :: rest => n.files (PathText.join here name) ++ entryFiles here rest

end

end Node

/-- The whole tree; its root is a directory. -/
abbrev FileTree := Node

namespace FileTree

/-- How many bytes a name may have. -/
def longestName : Nat := 255

def isTooLong (name : String) : Bool := longestName < name.utf8ByteSize

/-- The names that components lead through, from the place `here`. -/
def follow (t : FileTree) (here : List String) : List String → Except FileError (List String)
  | [] => .ok here
  | c :: cs =>
    match t.at? here with
    | some (.directory entries) =>
      if PathText.isIdle c then follow t here cs
      else if c == ".." then follow t here.dropLast cs
      else if isTooLong c then .error .nameTooLong
      else if (entries.lookup c).isSome then follow t (here ++ [c]) cs
      else .error .notFound
    | _ => .error .notDirectory

/-- How many bytes a path may have. -/
def longestPath : Nat := 4095

/-- The components of a path, which holds no character of code 0. -/
def componentsOf (path : String) : Except FileError (List String) :=
  if path.toList.contains '\x00' then .error .nullInPath
  else if longestPath < path.utf8ByteSize then .error .nameTooLong
  else .ok (PathText.components path)

def node (t : FileTree) (path : String) : Except FileError Node := do
  let place ← follow t [] (← componentsOf path)
  match t.at? place with
  | some n => return n
  | none => throw .notFound

def exists? (t : FileTree) (path : String) : Bool := (t.node path).isOk

def isDirectory (t : FileTree) (path : String) : Bool :=
  match t.node path with
  | .ok n => n.isDirectory
  | .error _ => false

def isFile (t : FileTree) (path : String) : Bool :=
  match t.node path with
  | .ok n => !n.isDirectory
  | .error _ => false

/-- What is in a directory; nothing if it is not there. -/
def entries (t : FileTree) (path : String) : Except FileError (List (String × Node)) :=
  match t.node path with
  | .ok (.directory entries) => .ok entries
  | .error .nullInPath => .error .nullInPath
  | _ => .ok []

def read (t : FileTree) (path : String) : Except FileError ByteArray := do
  match ← t.node path with
  | .file data => return data
  | .directory _ => throw .isDirectory

end FileTree

/-! ### Changes -/

/-- Steps that change a tree. What a step has done stays done if a later one fails. -/
abbrev FileAction (α : Type) := ExceptT FileError (StateM FileTree) α

namespace FileAction

/-- Makes the directories on the way through components from the place `here`. -/
def makeDirectories (here : List String) : List String → FileAction Unit
  | [] => return
  | c :: cs => do
    let t ← get
    match t.at? here with
    | some (.directory entries) =>
      if PathText.isIdle c then makeDirectories here cs
      else if c == ".." then makeDirectories here.dropLast cs
      else match entries.lookup c with
        | some (.file _) => throw (if cs.isEmpty then .alreadyExists else .notDirectory)
        | some (.directory _) => makeDirectories (here ++ [c]) cs
        | none =>
          if FileTree.isTooLong c then throw .nameTooLong
          set (t.put (here ++ [c]) (.directory []))
          makeDirectories (here ++ [c]) cs
    | _ => throw .notDirectory

/-- Makes a directory and those it lies in, as far as they are missing. -/
def makeDirectory (path : String) : FileAction Unit := do
  makeDirectories [] (← (FileTree.componentsOf path : Except FileError (List String)))

def writeBytes (path : String) (data : ByteArray) : FileAction Unit := do
  let t ← get
  let cs ← (FileTree.componentsOf path : Except FileError (List String))
  let last := cs.getLast?.getD ""
  let place ← t.follow [] cs.dropLast
  match t.at? place with
  | some (.directory entries) =>
    if PathText.isIdle last || last == ".." then throw .isDirectory
    else if FileTree.isTooLong last then throw .nameTooLong
    else match entries.lookup last with
      | some (.directory _) => throw .isDirectory
      | _ => set (t.put (place ++ [last]) (.file data))
  | _ => throw .notDirectory

def writeText (path text : String) : FileAction Unit := writeBytes path text.toUTF8

end FileAction

end GraphDecl
