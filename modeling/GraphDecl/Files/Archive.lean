import GraphDecl.Files.Glob
import GraphDecl.Files.Zip.Item
import GraphDecl.SourceError
import GraphDecl.Text.Cutting

/-!
Texts of files and archives. An archive is unpacked into a tree of its own; the texts of its schema
files are put together in the order of their paths. Zip archives are unpacked here, tar archives by a
reader from outside.
-/

namespace GraphDecl

/-- The text of a file: UTF-8, with every line ending made a line feed. -/
def fileText (data : ByteArray) : Except FileError String :=
  match String.fromUTF8? data with
  | some s => .ok (String.ofList (Text.unifyNewlines s.toList))
  | none => .error .undecodable

def FileTree.readText (t : FileTree) (path : String) : Except FileError String := do
  fileText (← t.read path)

namespace Archive

/-- The end of a name in lower case, as far as ASCII goes. -/
def endsWith (name ending : String) : Bool :=
  ending.toList.isSuffixOf (name.toList.map Char.toLower)

def tarSuffixes : List String := [".tar.gz", ".tgz"]

def isArchive (path : String) : Bool :=
  endsWith path ".zip" || tarSuffixes.any (endsWith path)

def schemaSuffixes : List String := [".graphql", ".graphqls", ".gql"]

def isSchemaFile (path : String) : Bool :=
  schemaSuffixes.any fun s => s.toList.isSuffixOf path.toList

/-- The place of a member in the tree: leading slashes and steps to `.` and `..` are left out. -/
def memberPath (name : String) : String :=
  "/" ++ Text.joinWith "/" ((PathText.parts name).filter (· ≠ ".."))

/-- The directory that the tree is unpacked to. Its last eight characters are drawn anew every time. -/
def temporary : String := "/tmp/tmp00000000"

/-- Whether the path of a member is not too long behind that of the directory. -/
def fits (path : String) : Bool := (temporary ++ path).utf8ByteSize ≤ FileTree.longestPath

def checkPath (path : String) : FileAction Unit := if fits path then return else throw .nameTooLong

/-- Unpacks one item. A name that ends in a slash is that of a directory. The file is made before its
data is unpacked. -/
def unpackItem (item : Zip.Item) : FileAction Unit := do
  let path := memberPath item.name
  let parent := PathText.parent path
  checkPath parent
  unless (← get).exists? parent do FileAction.makeDirectory parent
  if item.name.isEmpty then throw (.archive .emptyName)
  else if PathText.endsInSlash item.name then
    checkPath path
    unless (← get).isDirectory path do FileAction.makeDirectory path
  else
    let packed ← (item.packed.mapError .archive : Except FileError Zip.Packed)
    checkPath path
    FileAction.writeBytes path .empty
    let bytes ← (packed.unpack.mapError .archive : Except FileError ByteArray)
    FileAction.writeBytes path bytes

/-- Unpacks items in order into an empty tree. -/
def unpack (items : List Zip.Item) : Except FileError FileTree :=
  match (items.forM unpackItem).run.run (.directory []) with
  | (.ok (), t) => .ok t
  | (.error e, _) => .error e

/-- The texts of the schema files of a tree in the order of their paths. -/
def schemaTexts (t : FileTree) : Except FileError (List String) :=
  let files := (t.files "/").filter fun (path, _) => isSchemaFile path
  (files.mergeSort fun a b => decide (a.1 ≤ b.1)).mapM fun (_, data) => fileText data

def treeText (t : FileTree) : Except FileError String := do
  return Text.joinWith "\n" (← schemaTexts t)

def textOf (items : List Zip.Item) : Except FileError String := do treeText (← unpack items)

def zipText (t : FileTree) (path : String) : Except FileError String := do
  textOf (← (Zip.items (← t.read path)).mapError .archive)

/-! ### Tar archives -/

/-- What unpacking a tar archive comes to. In the tree, links stand for the files that they lead to. -/
inductive Untarred
  | tree (unpacked : FileTree)
  /-- A member reaches outside of the directory, or is something else than a file, directory or link. -/
  | refused (reason : String)
  /-- The archive is damaged, or cannot be unpacked for any other reason. -/
  | broken (reason : String)

/-- What becomes of the bytes of a tar archive. -/
abbrev TarReader := ByteArray → Untarred

def tarText (untar : TarReader) (t : FileTree) (path : String) : Except LoadError String := do
  match untar (← (t.read path).mapError .file) with
  | .tree unpacked => (treeText unpacked).mapError .file
  | .refused reason => throw (.source (.refusedMember path reason))
  | .broken reason => throw (.file (.tar reason))

def isZip (path : String) : Bool := endsWith (PathText.name path) ".zip"

def isTar (path : String) : Bool := tarSuffixes.any (endsWith (PathText.name path))

def read (untar : TarReader) (t : FileTree) (path : String) : Except LoadError String :=
  let path := PathText.normal path
  if isZip path then (zipText t path).mapError .file
  else if isTar path then tarText untar t path
  else .error (.file (.unsupportedArchive (PathText.suffix path)))

end Archive

end GraphDecl
