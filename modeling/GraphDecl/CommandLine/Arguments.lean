import GraphDecl.Text.Cutting
import GraphDecl.Text.Quoted
import GraphDecl.Text.Similarity

/-!
Options and other arguments on a command line. Long options take their value after `=` or as the next
argument, short ones in the same argument or as the next one; short flags can be written together.
-/

namespace GraphDecl.CommandLine

structure OptionSpec (α : Type) where
  key : α
  long : String
  short : Option Char
  takesValue : Bool

inductive ArgumentError
  /-- An unknown name, and the known ones that are like it. -/
  | noSuchOption (name : String) (near : List String)
  | needsValue (name : String)
  | takesNoValue (name : String)
  deriving DecidableEq, Repr

/-- Names that may be meant; a single one is not told. -/
def suggestion : List String → String
  | a :: b :: names => " (Did you mean one of: " ++
      Text.joinWith ", " ((a :: b :: names).map Text.quoted) ++ "?)"
  | _ => ""

def ArgumentError.message : ArgumentError → String
  | noSuchOption n near => "No such option " ++ Text.quoted n ++ "." ++ suggestion near
  | needsValue n => "Option '" ++ n ++ "' requires an argument."
  | takesNoValue n => "Option '" ++ n ++ "' does not take a value."

/-- The options in order, flags with an empty value, and the other arguments. -/
structure Parsed (α : Type) where
  options : List (α × String)
  rest : List String

/-- What one argument holds: complete options, and perhaps one that waits for its value. -/
structure Reading (α : Type) where
  complete : List (α × String)
  waiting : Option (α × String)

variable {α : Type}

def readLong (specs : List (OptionSpec α)) (name : String) (value : Option String) :
    Except ArgumentError (Reading α) :=
  match specs.find? (·.long == name) with
  | none => .error (.noSuchOption name (Text.nearNames name (specs.map (·.long))))
  | some s =>
    if s.takesValue then
      match value with
      | some v => .ok ⟨[(s.key, v)], none⟩
      | none => .ok ⟨[], some (s.key, name)⟩
    else
      match value with
      | some _ => .error (.takesNoValue name)
      | none => .ok ⟨[(s.key, "")], none⟩

def readShort (specs : List (OptionSpec α)) : List Char → Except ArgumentError (Reading α)
  | [] => .ok ⟨[], none⟩
  | c :: cs =>
    let name := String.ofList ['-', c]
    match specs.find? (·.short == some c) with
    | none => .error (.noSuchOption name [])
    | some s =>
      if s.takesValue then
        if cs.isEmpty then .ok ⟨[], some (s.key, name)⟩
        else .ok ⟨[(s.key, String.ofList cs)], none⟩
      else do
        let r ← readShort specs cs
        return ⟨(s.key, "") :: r.complete, r.waiting⟩

def splitValue (arg : List Char) : String × Option String :=
  let name := arg.takeWhile (· ≠ '=')
  let value := match arg.drop name.length with
    | _ :: v => some (String.ofList v)
    | [] => none
  (String.ofList name, value)

/-- Reads an argument that starts with a hyphen and is longer than that. -/
def readOption (specs : List (OptionSpec α)) (arg : List Char) : Except ArgumentError (Reading α) :=
  match arg with
  | '-' :: '-' :: _ =>
    let (name, value) := splitValue arg
    readLong specs name value
  | _ => readShort specs (arg.drop 1)

def looksLikeOption (arg : String) : Bool := arg.toList.head? == some '-' && 1 < arg.length

/-- Reads arguments; after `--` there are no more options. If options are not `scattered`, they stand
in front of the other arguments. -/
def parseArguments (specs : List (OptionSpec α)) (scattered : Bool) :
    Option (α × String) → List String → Except ArgumentError (Parsed α)
  | none, [] => .ok ⟨[], []⟩
  | some (_, name), [] => .error (.needsValue name)
  | some (key, _), value :: args => do
    let p ← parseArguments specs scattered none args
    return ⟨(key, value) :: p.options, p.rest⟩
  | none, arg :: args =>
    if arg == "--" then .ok ⟨[], args⟩
    else if looksLikeOption arg then do
      let r ← readOption specs arg.toList
      let p ← parseArguments specs scattered r.waiting args
      return ⟨r.complete ++ p.options, p.rest⟩
    else if scattered then do
      let p ← parseArguments specs scattered none args
      return ⟨p.options, arg :: p.rest⟩
    else .ok ⟨[], arg :: args⟩

end GraphDecl.CommandLine
