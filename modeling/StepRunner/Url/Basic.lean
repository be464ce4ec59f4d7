import StepRunner.Text.Blank
import StepRunner.Url.Host

namespace StepRunner

namespace Url

/-- What stands between the two slashes and the path. -/
structure Authority where
  user : List Char
  password : Option (List Char)
  host : Option Host
  port : Option Nat
deriving DecidableEq, Repr

/-- A path: segments, or a text that has none. -/
inductive UrlPath where
  | segments (names : List (List Char))
  | opaquePath (text : List Char)
deriving DecidableEq, Repr

/-- The text of a path: every segment follows a slash. -/
def UrlPath.text : UrlPath → List Char
  | .segments names => names.flatMap ('/' :: ·)
  | .opaquePath text => text

end Url

/-- An absolute URL. -/
structure Url where
  scheme : List Char
  authority : Option Url.Authority
  path : Url.UrlPath
  query : Option (List Char)
  fragment : Option (List Char)
deriving DecidableEq, Repr

namespace Url

/-- The schemes whose URLs always name a host and a path. -/
def isSpecialScheme (scheme : List Char) : Bool :=
  ["http", "https", "ws", "wss", "ftp", "file"].contains (String.ofList scheme)

/-- The port that need not be written. -/
def defaultPort (scheme : List Char) : Option Nat :=
  match String.ofList scheme with
  | "http" | "ws" => some 80
  | "https" | "wss" => some 443
  | "ftp" => some 21
  | _ => none

/-- The host, if the URL names one. -/
def host? (url : Url) : Option Host := url.authority.bind (·.host)

/-- The text of an authority. -/
def Authority.text (a : Authority) : List Char :=
  let user := a.user ++ match a.password with
    | some password => ':' :: password
    | none => []
  (if a.user = [] ∧ a.password = none then [] else user ++ ['@']) ++
    (match a.host with
      | some host => host.text
      | none => []) ++
    match a.port with
    | some port => ':' :: Text.decimal port
    | none => []

/-- The text of a URL. A path that would look like an authority is kept apart by a dot. -/
def text (url : Url) : String :=
  let path := url.path.text
  let start := match url.authority with
    | some a => ['/', '/'] ++ a.text
    | none => if ['/', '/'].isPrefixOf path then ['/', '.'] else []
  let ending := fun (mark : Char) (part : Option (List Char)) =>
    match part with
    | some text => mark :: text
    | none => []
  String.ofList
    (url.scheme ++ ':' :: start ++ path ++ ending '?' url.query ++ ending '#' url.fragment)

/-- The segments without those at the start that are empty, the last one apart. -/
def withoutEmptyStart : List (List Char) → List (List Char)
  | [] => [[]]
  | [name] => [name]
  | name :: rest => if name = [] then withoutEmptyStart rest else name :: rest

/-- The segments of a path with one more at the end. Segments that are dots are left out, and so
    are line ends and tabs. -/
def addSegment (scheme : List Char) (names : List (List Char)) (segment : List Char) :
    List (List Char) :=
  if segment = ['.'] ∨ segment = ['.', '.'] then names
  else
    let name := segment.filter fun c => c ≠ '\t' ∧ c ≠ '\n' ∧ c ≠ '\r'
    let before := if names = [[]] then [] else names
    let after :=
      if name = ['.', '.'] then before.dropLast ++ [[]]
      else if name = ['.'] then before ++ [[]]
      else before ++ [percentEncode (segmentSet (isSpecialScheme scheme)) name]
    if scheme = "file".toList then withoutEmptyStart after else after

/-- The URL with segments added to its path. An empty last segment gives way to them; a path
    that has no segments takes none. -/
def extend? (url : Url) (segments : List (List Char)) : Option Url :=
  match url.path with
  | .opaquePath _ => none
  | .segments names =>
    let names := if 1 < names.length ∧ names.getLast? = some [] then names.dropLast else names
    some { url with path := .segments (segments.foldl (addSegment url.scheme) names) }

/-- The URL with fields added to its query. -/
def withFields (url : Url) (fields : List (List Char × List Char)) : Url :=
  let query := addFields (url.query.getD []) fields
  { url with query := if query = [] then none else some query }

/-- The URL without user and password. -/
def withoutUser (url : Url) : Url :=
  { url with authority := url.authority.map fun a => { a with user := [], password := none } }

end Url

end StepRunner
