import GraphDecl.Text.Cutting
import GraphDecl.Web.Composition
import GraphDecl.Web.Context
import GraphDecl.Web.Direction
import GraphDecl.Web.LowerCase
import GraphDecl.Web.NameChars
import GraphDecl.Web.Punycode

/-!
Names of hosts in other scripts than that of ASCII, written in ASCII label by label.
-/

namespace GraphDecl.Web

open Text

def isLabelDot (c : Char) : Bool :=
  c == '.' || c == '\u3002' || c == '\uff0e' || c == '\uff61'

/-- What a label in another script starts with once it is written in ASCII. -/
def asciiMark : List Char := ['x', 'n', '-', '-']

/-- Whether hyphens are neither at an end nor third and fourth character. -/
def keepsHyphensApart (label : List Char) : Bool :=
  label.head? != some '-' && label.getLast? != some '-' && (label.drop 2).take 2 != ['-', '-']

/-- Whether all characters may stand where they are, after those `before`, the last one of which comes
first. -/
def areInPlace (before : List Char) : List Char → Bool
  | [] => true
  | c :: s => (isNameChar c || fitsBetween before c s) && areInPlace (c :: before) s

/-- Whether a text is a label in its own script. No mark starts a label. -/
def isLabel (label : List Char) : Bool :=
  match label with
  | [] => false
  | c :: _ => !isMark c && keepsHyphensApart label && areInPlace [] label && isComposed label
      && keepsDirection label

/-- Whether what follows the mark of a label stands for a label. -/
def isMarked (coded : List Char) : Bool :=
  !coded.isEmpty && coded.getLast? != some '-' && match Punycode.decode? coded with
    | some label => isLabel label
    | none => false

def longestLabel : Nat := 63

def asciiLabel? (label : List Char) : Option (List Char) :=
  if longestLabel < label.length then none
  else if label.all (·.toNat < 128) then
    let isRight := if asciiMark.isPrefixOf label then isMarked (label.drop asciiMark.length)
      else isLabel label
    if isRight then some label else none
  else
    let ascii := asciiMark ++ Punycode.encode label
    if isLabel label && ascii.length ≤ longestLabel then some ascii else none

/-- How long a name may be in ASCII, without a dot at its end. -/
def longestName : Nat := 253

/-- A name in ASCII and lower case. A dot may end it. No name is shorter in ASCII than in its own
script. -/
def asciiName? (host : String) : Option String := do
  if longestName + 1 < host.length then none
  let dots := (lowerCase host.toList).map fun c => if isLabelDot c then '.' else c
  let labels := splitAt '.' dots
  let isEnded := labels.getLast? == some []
  let ascii ← (if isEnded then labels.dropLast else labels).mapM asciiLabel?
  let name := joinWith "." (ascii.map String.ofList)
  if name.length ≤ longestName then some (if isEnded then name ++ "." else name) else none

end GraphDecl.Web
