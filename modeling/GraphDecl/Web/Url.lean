import GraphDecl.Text.Digit
import GraphDecl.Web.Address
import GraphDecl.Web.HostName
import GraphDecl.Web.UrlFault

/-!
URLs: cutting them into parts, and bringing these into a normal form, in which two URLs of one page are
mostly equal.
-/

namespace GraphDecl

open Text

structure Url where
  /-- Empty if it is not given, as are user and host. -/
  scheme : String
  user : String
  host : String
  /-- The number of the service at the host. -/
  service : Option Int
  path : String
  query : Option String
  fragment : Option String
  deriving DecidableEq, Repr

namespace Url

/-! ### Characters -/

def percentByte (byte : UInt8) : List Char :=
  '%' :: (hexDigits 2 byte.toNat).map Char.toUpper

/-- A text in which all but safe characters are replaced by percent signs and their bytes. -/
def escape (isSafe : Char → Bool) (s : String) : String :=
  String.ofList (s.toList.flatMap fun c =>
    if isSafe c then [c] else (String.singleton c).toUTF8.toList.flatMap percentByte)

/-- Visible characters of ASCII but for some. -/
def visibleBut (others : String) (c : Char) : Bool :=
  0x20 < c.toNat && c.toNat < 0x7f && !others.toList.contains c

def isSafeInFragment : Char → Bool := visibleBut "\"<>`"
def isSafeInQuery : Char → Bool := visibleBut "\"#<>"
def isSafeInPath : Char → Bool := visibleBut "\"#<>?`\x7b\x7d"
def isSafeInUser : Char → Bool := visibleBut "\"#<>?`\x7b\x7d/;=@[\\]^|"
def isSafeInHost : Char → Bool := visibleBut "#/:<>?@[]^"

/-! ### Parts of a URL -/

/-- A text up to the first of some characters, and the rest from it on. -/
def cutAtAny (marks : List Char) (s : List Char) : List Char × List Char :=
  s.span fun c => !marks.contains c

/-- The part after a character, if that comes next, and what is left from the first of some others
on. -/
def partAfter (mark : Char) (stops : List Char) : List Char → Option (List Char) × List Char
  | [] => (none, [])
  | c :: r =>
    if c = mark then
      let (part, rest) := cutAtAny stops r
      (some part, rest)
    else (none, c :: r)

def isSchemeChar (c : Char) : Bool := c.isAlphanum || c == '+' || c == '.' || c == '-'

/-- The scheme and the rest after its colon. It starts with a letter, if it is not empty. -/
def cutScheme (s : List Char) : List Char × List Char :=
  match s.span isSchemeChar with
  | ([], ':' :: r) => ([], r)
  | (c :: cs, ':' :: r) => if c.isAlpha then (c :: cs, r) else ([], s)
  | _ => ([], s)

def cutUser (s : List Char) : List Char × List Char :=
  if s.contains '@' then
    let host := (s.reverse.takeWhile (· ≠ '@')).reverse
    (s.take (s.length - host.length - 1), host)
  else ([], s)

/-- The host, which may stand in brackets, and the number after it. -/
def cutHost (s : List Char) : List Char × List Char :=
  let (host, rest) :=
    if s.head? == some '[' && s.contains ']' then
      let rest := (s.reverse.takeWhile (· ≠ ']')).reverse
      (s.take (s.length - rest.length), rest)
    else cutAtAny [':'] s
  (host, if rest.head? == some ':' then rest.tail else rest)

/-! ### Normal forms -/

def isAscii (s : String) : Bool := s.toList.all (·.toNat < 128)

/-- The normal form of a host; brackets are left out. -/
def normalHost (host : String) : Except UrlFault String :=
  let chars := host.toList
  if Web.isIpv4Like chars then
    if Web.isIpv4 chars then .ok host else .error (.ipv4 host)
  else if chars.head? == some '[' && chars.getLast? == some ']' then
    let address := chars.tail.dropLast
    if Web.isIpv6 address then .ok (String.ofList address) else .error (.ipv6 host)
  else if isAscii host then .ok (escape isSafeInHost (String.ofList (chars.map Char.toLower)))
  else match Web.asciiName? host with
    | some name => .ok name
    | none => .error (.hostName host)

/-- The services of schemes if none is given. -/
def usualServices : List (String × Int) :=
  [("ftp", 21), ("http", 80), ("https", 443), ("ws", 80), ("wss", 443)]

/-- The number of a service, unless it is the usual one. A scheme in capitals has no usual one. -/
def normalService (scheme number : String) : Except UrlFault (Option Int) :=
  if number.isEmpty then .ok none
  else match Text.int? number with
    | some n => .ok (if usualServices.lookup scheme = some n then none else some n)
    | none => .error (.service number)

/-- The components of a path after those `before`, the last one first; `..` takes one away. -/
def walkPath (before : List (List Char)) : List (List Char) → List (List Char)
  | [] => before.reverse
  | c :: cs =>
    if c == ['.'] then walkPath before cs
    else if c == ['.', '.'] then walkPath (if before == [[]] then before else before.tail) cs
    else walkPath (c :: before) cs

/-- A path without `.` and `..`. -/
def normalPath (path : List Char) : String :=
  joinWith "/" ((walkPath [] (splitAt '/' path)).map String.ofList)

/-! ### Reading and writing -/

def longest : Nat := 65536

def isControl (c : Char) : Bool := c.toNat < 0x20 || c.toNat == 0x7f

def parse (text : String) : Except UrlFault Url := do
  let chars := text.toList
  if longest < chars.length then throw .tooLong
  if let some place := chars.findIdx? isControl then
    throw (.unprintable (chars.getD place ' ') place)
  let (scheme, rest) := cutScheme chars
  let (authority, rest) := match rest with
    | '/' :: '/' :: r => cutAtAny ['/', '?', '#'] r
    | _ => ([], rest)
  let (path, rest) := cutAtAny ['?', '#'] rest
  let (query, rest) := partAfter '?' ['#'] rest
  let (fragment, _) := partAfter '#' [] rest
  let (user, rest) := cutUser authority
  let (host, number) := cutHost rest
  let user := escape isSafeInUser (String.ofList user)
  let host ← normalHost (String.ofList host)
  let service ← normalService (String.ofList scheme) (String.ofList number)
  let isRelative := scheme.isEmpty && user.isEmpty && host.isEmpty && service.isNone
  if isRelative && ['/', '/'].isPrefixOf path then throw .doubleSlash
  if isRelative && path.head? == some ':' then throw .leadingColon
  return { scheme := String.ofList (scheme.map Char.toLower), user, host, service
           path := escape isSafeInPath (if isRelative then String.ofList path else normalPath path)
           query := query.map fun q => escape isSafeInQuery (String.ofList q)
           fragment := fragment.map fun f => escape isSafeInFragment (String.ofList f) }

/-- Everything between two slashes and the path. -/
def authority (u : Url) : String :=
  (if u.user.isEmpty then "" else u.user ++ "@")
    ++ (if u.host.toList.contains ':' then "[" ++ u.host ++ "]" else u.host)
    ++ (match u.service with
      | some n => ":" ++ toString n
      | none => "")

def text (u : Url) : String :=
  (if u.scheme.isEmpty then "" else u.scheme ++ ":")
    ++ (if u.authority.isEmpty then "" else "//" ++ u.authority)
    ++ u.path
    ++ (match u.query with
      | some q => "?" ++ q
      | none => "")
    ++ (match u.fragment with
      | some f => "#" ++ f
      | none => "")

/-- The URL that is asked for: without scheme or host only path and query matter, and the path starts
with one slash. -/
def requested (u : Url) : Url :=
  if !u.scheme.isEmpty && !u.host.isEmpty then u
  else
    let path := "/" ++ String.ofList (u.path.toList.dropWhile (· == '/'))
    { u with scheme := "", user := "", host := "", service := none, path, fragment := none }

end Url

end GraphDecl
