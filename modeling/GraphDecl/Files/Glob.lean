import GraphDecl.Files.Tree
import GraphDecl.Files.Wildcard
import GraphDecl.Imports
import GraphDecl.Text.Cutting

/-!
Finding files by patterns. Every component of a path may hold wildcards; a component `**` stands for
any number of directories. Names that start with a dot are found only by components that do so too. Only
directories whose names hold a character of code 0 cannot be listed at all.
-/

namespace GraphDecl.Glob

def isHidden (name : String) : Bool := name.toList.head? == some '.'

def isRecursive (component : String) : Bool := component == "**"

mutual

/-- Paths of what is below a node and not hidden, seen from the node. -/
def below (directoriesOnly : Bool) : Node → List String
  | .file _ => []
  | .directory entries => belowEntries directoriesOnly entries

def belowEntries (directoriesOnly : Bool) : List (String × Node) → List String
  | [] => []
  | (name, n) :: rest =>
    (if isHidden name || (directoriesOnly && !n.isDirectory) then []
     else name :: (below directoriesOnly n).map (PathText.join name))
    ++ belowEntries directoriesOnly rest

end

/-- What `**` stands for in a directory: the directory itself, whether or not it is there, and all that
is below. -/
def anyDepth (t : FileTree) (directoriesOnly : Bool) (dir : String) :
    Except FileError (List String) := do
  return "" :: belowEntries directoriesOnly (← t.entries dir)

def fitting (t : FileTree) (directoriesOnly : Bool) (dir component : String) :
    Except FileError (List String) := do
  let seen := (← t.entries dir).filter fun (name, n) =>
    (isHidden component || !isHidden name) && (!directoriesOnly || n.isDirectory)
  return (seen.map (·.1)).filter (fitsPattern component)

/-- A component without wildcards, if there is something of that name. An empty one, after a slash,
asks for a directory. -/
def literal (t : FileTree) (dir component : String) : List String :=
  if component.isEmpty then if t.isDirectory dir then [component] else []
  else if t.exists? (PathText.join dir component) then [component] else []

def candidates (t : FileTree) (directoriesOnly : Bool) (dir component : String) :
    Except FileError (List String) :=
  if !hasWildcard component.toList then .ok (literal t dir component)
  else if isRecursive component then anyDepth t directoriesOnly dir
  else fitting t directoriesOnly dir component

/-- Whether there is what a path without wildcards names; a directory, if it ends in a slash. -/
def found (t : FileTree) (path : String) : Bool :=
  if PathText.endsInSlash path then t.isDirectory path else t.exists? path

/-- The paths that fit a pattern. What is in front of the first wildcard stays as it is written. -/
def expand (t : FileTree) (directoriesOnly : Bool) (pattern : List Char) :
    Except FileError (List String) := do
  if !hasWildcard pattern then
    return if found t (String.ofList pattern) then [String.ofList pattern] else []
  else
    let (front, last) := PathText.splitLast pattern
    let dirs ←
      if _h : hasWildcard front ∧ front.length < pattern.length then expand t true front
      else pure [String.ofList front]
    let paths ← dirs.mapM fun dir => do
      return (← candidates t directoriesOnly dir (String.ofList last)).map (PathText.join dir)
    return paths.flatten
termination_by pattern.length
decreasing_by exact _h.2

/-- The order of texts by code points. -/
def sortTexts (paths : List String) : List String := paths.mergeSort (fun a b => decide (a ≤ b))

def withBase (base pattern : String) : String := PathText.join base (Text.trimmed pattern)

/-- The paths for the patterns between commas. Those of one pattern are sorted, and a path is named
once, where it first occurs. -/
def paths (t : FileTree) (base patterns : String) : Except FileError (List String) := do
  let single := (Text.pieces ',' patterns).filter (!Text.allBlank ·)
  let found ← single.mapM fun p => sortTexts <$> expand t false (withBase base p).toList
  return firstOccurrences found.flatten

end GraphDecl.Glob
