import GraphDecl.Text.Quoted

/-!
What can be wrong with a URL, also when it is asked for.
-/

namespace GraphDecl

inductive UrlFault
  | tooLong
  /-- A control character of ASCII. -/
  | unprintable (c : Char) (place : Nat)
  /-- A host that looks like an address but is none. -/
  | ipv4 (host : String)
  | ipv6 (host : String)
  /-- A host that is no name in any script. -/
  | hostName (host : String)
  /-- What stands for the number of a service is no number. -/
  | service (text : String)
  /-- A path without a host that starts with two slashes or with a colon. -/
  | doubleSlash | leadingColon
  /-- There is an answer, but what it was asked for has no scheme. -/
  | noScheme (requested : String)
  deriving DecidableEq, Repr

def UrlFault.message : UrlFault → String
  | tooLong => "URL too long"
  | unprintable c place => "Invalid non-printable ASCII character in URL, "
      ++ Text.quoted (String.singleton c) ++ " at position " ++ toString place ++ "."
  | ipv4 host => "Invalid IPv4 address: " ++ Text.quoted host
  | ipv6 host => "Invalid IPv6 address: " ++ Text.quoted host
  | hostName host => "Invalid IDNA hostname: " ++ Text.quoted host
  | service text => "Invalid port: " ++ Text.quoted text
  | doubleSlash => "Relative URLs cannot have a path starting with '//'"
  | leadingColon => "Relative URLs cannot have a path starting with ':'"
  | noScheme requested => "unknown url type: " ++ Text.quoted requested

end GraphDecl
