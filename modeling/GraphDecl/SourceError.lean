import GraphDecl.Files.Tree
import GraphDecl.Web.UrlFault

/-!
Why sources cannot be loaded.
-/

namespace GraphDecl

/-- What is wrong with a source itself. -/
inductive SourceError
  /-- No file fits the patterns of a source. -/
  | noMatch (source base : String)
  | status (code : Nat) (url : String)
  | request (url reason : String)
  /-- An archive has a member that is not unpacked, so that nothing outside is written over. -/
  | refusedMember (archive reason : String)
  deriving DecidableEq, Repr

def SourceError.message : SourceError → String
  | noMatch source base => "No files match '" ++ source ++ "' in " ++ base
  | status code url => "HTTP error " ++ toString code ++ " fetching " ++ url
  | request url reason => "Request failed for " ++ url ++ ": " ++ reason
  | refusedMember archive reason => "Unsafe member in archive " ++ archive ++ ": " ++ reason

/-- Why sources cannot be loaded. Only what is wrong with a source itself is reported. -/
inductive LoadError
  | source (error : SourceError)
  | file (error : FileError)
  | url (fault : UrlFault)
  deriving DecidableEq, Repr

end GraphDecl
