import GraphDecl.CommandLine.Run

/-!
The program. It reads the files that the options can lead to, runs on them, and writes those that the
run has changed. URLs cannot be reached.
-/

namespace GraphDecl.Main

open CommandLine

/-- What is at a path; directories with what is below them, as far as `depth` levels. Files that cannot
be read are left out. -/
def readNode (depth : Nat) (path : String) : IO (Option Node) := do
  try
    let place ← IO.FS.realPath path
    if ← place.isDir then
      match depth with
      | 0 => return some (.directory [])
      | depth + 1 =>
        let names := (← place.readDir).toList.map (·.fileName)
        let found ← names.mapM fun name => return (name, ← readNode depth (PathText.join path name))
        return some (.directory (found.filterMap fun (name, n?) => n?.map (name, ·)))
    else return some (.file (← IO.FS.readBinFile place))
  catch _ => return none

/-- Adds what is at an absolute path, unless it is there already. -/
def addPlace (t : FileTree) (place : String × Nat) : IO FileTree := do
  if t.exists? place.1 then return t
  else match ← readNode place.2 place.1 with
    | some n => return t.put (PathText.parts place.1) n
    | none => return t

/-- The part of a pattern in front of its wildcards. -/
def fixedPart (pattern : String) : String :=
  match (PathText.components pattern).takeWhile fun c => !hasWildcard c.toList with
  | [""] => "/"
  | cs => Text.joinWith "/" cs

/-- The places that options lead to and how many levels of them matter. Those that may hold others
come first. -/
def places (cwd : String) (options : List (CompileOption × String)) : List (String × Nat) :=
  let base := PathText.resolve cwd ((last? options .basePath).getD "")
  let sources := (given options .schema ++ given options .operations).filter (!Source.isUrl ·)
  let patterns := sources.flatMap (Text.pieces ',')
  let deep := patterns.map fun p => (PathText.resolve base (fixedPart (Text.trimmed p)), 64)
  let flat := [CompileOption.output, .basePath, .templateDir].filterMap fun o =>
    (last? options o).map fun p => (PathText.resolve cwd p, 1)
  (deep.mergeSort fun a b => decide (a.1.length ≤ b.1.length)) ++ flat

def placesOf (cwd : String) : List String → List (String × Nat)
  | _ :: args =>
    match parseArguments compileOptions true none args with
    | .ok p => places cwd p.options
    | .error _ => []
  | [] => []

def writeChanges (before after : FileTree) : IO Unit := do
  for (path, data) in after.files "/" do
    if (before.read path).toOption.map (·.data) ≠ some data.data then
      IO.FS.createDirAll (PathText.parent path)
      IO.FS.writeBinFile path data

def levelName : Level → String
  | .debug => "DEBUG"
  | .info => "INFO"

/-- Runs the program on the arguments and returns its exit code. -/
def execute (args : List String) : IO UInt32 := do
  let cwd := (← IO.currentDir).toString
  let tree ← (placesOf cwd args).foldlM addPlace (.directory [])
  let outcome := CommandLine.run (.plain tree fun _ => .failure "no network") cwd args
  writeChanges tree outcome.tree
  for e in outcome.log do IO.eprintln (levelName e.level ++ " " ++ e.text)
  IO.print outcome.output
  match outcome.crash with
  | some e => IO.eprintln e.message
  | none => pure ()
  return outcome.exitCode.toUInt32

end GraphDecl.Main

def main (args : List String) : IO UInt32 := GraphDecl.Main.execute args
