import GraphDecl.Text.Cutting

/-!
Paths as texts: components between slashes, of which empty ones and `.` say nothing.
-/

namespace GraphDecl.PathText

def isAbsolute (p : String) : Bool := p.toList.head? == some '/'

def endsInSlash (p : String) : Bool := p.toList.getLast? == some '/'

/-- `p` seen from the directory `base`; an absolute path stays as it is. -/
def join (base p : String) : String :=
  if isAbsolute p then p
  else if base.isEmpty || endsInSlash base then base ++ p
  else base ++ "/" ++ p

def components (p : String) : List String := Text.pieces '/' p

def isIdle (component : String) : Bool := component.isEmpty || component == "."

def parts (p : String) : List String := (components p).filter (!isIdle ·)

/-- The slashes in front of an absolute path: one, unless exactly two are written. -/
def rootText (p : String) : String :=
  match (p.toList.takeWhile (· == '/')).length with
  | 0 => ""
  | 2 => "//"
  | _ => "/"

private def orDot (p : String) : String := if p.isEmpty then "." else p

def normal (p : String) : String := orDot (rootText p ++ Text.joinWith "/" (parts p))

def name (p : String) : String := (parts p).getLast?.getD ""

/-- The length of a file name up to its last dot, which has to be neither the first nor the last
character. -/
def stemLength? (name : List Char) : Option Nat :=
  let ending := (name.reverse.takeWhile (· ≠ '.')).length
  let stem := name.length - ending - 1
  if ending < name.length ∧ 0 < stem ∧ 0 < ending then some stem else none

/-- The file name without its suffix. -/
def stem (p : String) : String :=
  let n := (name p).toList
  String.ofList (n.take ((stemLength? n).getD n.length))

/-- The last dot of the file name and what follows it. -/
def suffix (p : String) : String :=
  let n := (name p).toList
  String.ofList (n.drop ((stemLength? n).getD n.length))

/-- A path before and after its last slash. The first part has no slashes at its end, unless it
consists of slashes. -/
def splitLast (p : List Char) : List Char × List Char :=
  let last := (p.reverse.takeWhile (· ≠ '/')).reverse
  let front := p.take (p.length - last.length)
  let bare := (front.reverse.dropWhile (· == '/')).reverse
  (if bare.isEmpty then front else bare, last)

def parent (p : String) : String := String.ofList (splitLast p.toList).1

/-- Goes through components from the place `here`; `..` takes one step back. -/
def walk (here : List String) : List String → List String
  | [] => here
  | c :: cs => if c == ".." then walk here.dropLast cs else walk (here ++ [c]) cs

/-- The absolute path of `p` seen from the absolute path `base`, with one slash in front and without idle
components and `..`. -/
def resolve (base p : String) : String := "/" ++ Text.joinWith "/" (walk [] (parts (join base p)))

end GraphDecl.PathText
