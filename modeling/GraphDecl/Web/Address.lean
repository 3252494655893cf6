import GraphDecl.Text.Cutting
import GraphDecl.Text.Digit

/-!
Addresses of hosts: four numbers, or up to eight in hexadecimal.
-/

namespace GraphDecl.Web

open Text

/-! ### Four numbers -/

def isNumber (s : List Char) : Bool := !s.isEmpty && s.all (·.isDigit)

/-- Whether a text is four numbers with dots between them, however large. -/
def isIpv4Like (host : List Char) : Bool :=
  let numbers := splitAt '.' host
  numbers.length == 4 && numbers.all isNumber

/-- Whether a text is a number of at most 255 without leading zeros. -/
def isOctet (s : List Char) : Bool :=
  isNumber s && s.length ≤ 3 && (s.length == 1 || s.head? != some '0')
    && s.foldl (fun n c => 10 * n + (c.toNat - '0'.toNat)) 0 ≤ 255

def isIpv4 (host : List Char) : Bool :=
  let octets := splitAt '.' host
  octets.length == 4 && octets.all isOctet

/-! ### Eight numbers -/

def isHextet (s : List Char) : Bool := !s.isEmpty && s.all isHexDigit && s.length ≤ 4

/-- The numbers of an address, where one that is written as four counts for two; `none` if it is not. -/
def hextets? (parts : List (List Char)) : Option (List (List Char)) :=
  match parts.getLast? with
  | some last =>
    if !last.contains '.' then some parts
    else if isIpv4 last then some (parts.dropLast ++ [['0'], ['0']])
    else none
  | none => none

/-- The parts of an address after two colons, given the parts after the first empty one. At the start or
the end of the address the two are the only ones there. -/
def afterGap (isFirst : Bool) : List (List Char) → Option (List (List Char))
  | [] => none
  | part :: parts =>
    if isFirst then if part.isEmpty then afterGap false parts else none
    else if part.isEmpty && parts.isEmpty then some []
    else some (part :: parts)

/-- Two colons stand for numbers that are left out, once in an address and for one at least. -/
def areHextets (parts : List (List Char)) : Bool :=
  let before := parts.takeWhile (!·.isEmpty)
  if before.length = parts.length then parts.length == 8 && parts.all isHextet
  else match afterGap before.isEmpty (parts.drop (before.length + 1)) with
    | some after => before.length + after.length < 8 && before.all isHextet && after.all isHextet
    | none => false

/-- Whether a text is an address of eight numbers. What follows a percent sign names a network. -/
def isIpv6 (host : List Char) : Bool :=
  let address := host.takeWhile (· ≠ '%')
  let network := host.dropWhile (· ≠ '%')
  let parts := splitAt ':' address
  !host.contains '/' && (network.isEmpty || (1 < network.length && network.count '%' == 1))
    && 3 ≤ parts.length
    && match hextets? parts with
      | some parts => parts.length ≤ 9 && areHextets parts
      | none => false

end GraphDecl.Web
