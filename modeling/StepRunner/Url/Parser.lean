import StepRunner.Url.Basic

namespace StepRunner.Url

/-- Whether the character ends an authority. -/
def endsAuthority (special : Bool) (c : Char) : Bool :=
  c = '/' || c = '?' || c = '#' || (special && c = '\\')

/-- The scheme at the start of a text, in lower case, and what follows its colon. -/
def scheme? (text : List Char) : Option (List Char × List Char) :=
  let name := text.takeWhile fun c => c.isAlphanum || c = '+' || c = '-' || c = '.'
  match text.drop name.length with
  | ':' :: rest =>
    if name.head?.any Char.isAlpha then some (name.map Char.toLower, rest) else none
  | _ => none

/-- User and password before the last at sign of an authority, and the rest. -/
def userOf (special : Bool) (text : List Char) :
    Except UrlError (List Char × Option (List Char) × List Char) :=
  let authority := text.takeWhile (!endsAuthority special ·)
  if !authority.contains '@' then .ok ([], none, text)
  else
    let after := (authority.reverse.takeWhile (· ≠ '@')).reverse
    let info := (authority.take (authority.length - after.length)).dropLast
    let rest := text.drop (info.length + 1)
    if info = [] then
      if rest.head?.any (endsAuthority special) then .error .emptyHost else .ok ([], none, rest)
    else
      match Text.splitOnce ':' info with
      | none => .ok (percentEncode userSet info, none, rest)
      | some (user, password) =>
        .ok (percentEncode userSet user,
          if password = [] then none else some (percentEncode userSet password), rest)

/-- The host's text at the start of a text, and what follows it. A colon between square brackets
    belongs to it. -/
def takeHost (special inside : Bool) : List Char → List Char × List Char
  | [] => ([], [])
  | c :: rest =>
    if endsAuthority special c || (c = ':' && !inside) then ([], c :: rest)
    else
      let (host, rest) := takeHost special (c = '[' || (inside && c ≠ ']')) rest
      (c :: host, rest)

/-- The port after a colon, unless it is the usual one, and what follows it. -/
def portOf (scheme text : List Char) : Except UrlError (Option Nat × List Char) :=
  let digits := text.takeWhile Text.isDigit
  let rest := text.drop digits.length
  match Text.decimalValue? digits with
  | none => .error .invalidPort
  | some port =>
    if 65535 < port then .error .invalidPort
    else if rest.head?.any (!endsAuthority true ·) then .error .invalidPort
    else .ok (if digits = [] ∨ some port = defaultPort scheme then none else some port, rest)

/-- The parts of a path's text between slashes; in special URLs a backslash is a slash. -/
def pathPieces (special : Bool) : List Char → List (List Char)
  | [] => [[]]
  | c :: rest =>
    if c = '/' ∨ (special ∧ c = '\\') then [] :: pathPieces special rest
    else
      match pathPieces special rest with
      | [] => [[c]]
      | first :: others => (c :: first) :: others

/-- Whether a segment stands for the one before. -/
def isDoubleDot (segment : List Char) : Bool :=
  ["..", "%2e%2e", ".%2e", "%2e."].contains (String.ofList (segment.map Char.toLower))

/-- Whether a segment stands for nothing. -/
def isSingleDot (segment : List Char) : Bool :=
  [".", "%2e"].contains (String.ofList (segment.map Char.toLower))

/-- Whether a segment is the letter of a drive. -/
def isDrive (segment : List Char) : Bool :=
  match segment with
  | [letter, mark] => letter.isAlpha && (mark = ':' || mark = '|')
  | _ => false

/-- The segments without dots; `done` are the ones so far. -/
def resolveDots (file : Bool) (done : List (List Char)) : List (List Char) → List (List Char)
  | [] => done
  | segment :: rest =>
    let last := if rest = [] then [[]] else []
    if isDoubleDot segment then
      let kept := if file && done.length = 1 && done.all isDrive then done else done.dropLast
      resolveDots file (kept ++ last) rest
    else if isSingleDot segment then resolveDots file (done ++ last) rest
    else
      let name := percentEncode pathSet segment
      let name := if file && done.all (·.isEmpty) && isDrive name then name.take 1 ++ [':'] else name
      resolveDots file (done ++ [name]) rest

/-- The segments of a path whose first slash has been taken off. -/
def pathOf (scheme text : List Char) : List (List Char) :=
  let file := scheme = "file".toList
  let names := resolveDots file [] (pathPieces (isSpecialScheme scheme) text)
  if file then withoutEmptyStart names else names

/-- Path, query and fragment of a text. -/
def parts (text : List Char) : List Char × Option (List Char) × Option (List Char) :=
  let beforeFragment := text.takeWhile (· ≠ '#')
  let path := beforeFragment.takeWhile (· ≠ '?')
  (path, (beforeFragment.drop path.length).tail?, (text.drop beforeFragment.length).tail?)

/-- A URL from its first parts and the text from the path on. -/
def assemble (scheme : List Char) (authority : Option Authority) (toPath : List Char → UrlPath)
    (text : List Char) : Url :=
  let (path, query, fragment) := parts text
  ⟨scheme, authority, toPath path, query.map (percentEncode (querySet (isSpecialScheme scheme))),
    fragment.map (percentEncode fragmentSet)⟩

/-- The path after an authority. -/
def pathAfterAuthority (scheme path : List Char) : UrlPath :=
  match path with
  | [] => .segments (if isSpecialScheme scheme then [[]] else [])
  | c :: rest =>
    if c = '/' ∨ (isSpecialScheme scheme ∧ c = '\\') then .segments (pathOf scheme rest)
    else .segments (pathOf scheme path)

/-- A URL from the text after the two slashes. -/
def afterSlashes (scheme text : List Char) : Except UrlError Url := do
  let special := isSpecialScheme scheme
  let (user, password, rest) ← userOf special text
  let (hostText, rest) := takeHost special false rest
  if special ∧ hostText = [] then throw .emptyHost
  let host ← if special then hostOf hostText else opaqueHostOf hostText
  let (port, rest) ← match rest with
    | ':' :: digits => if host = .domain [] then throw .emptyHost else portOf scheme digits
    | _ => pure (none, rest)
  let host := if host = .domain [] then none else some host
  if host = none ∧ (user ≠ [] ∨ password ≠ none) then throw .emptyHost
  return assemble scheme (some ⟨user, password, host, port⟩) (pathAfterAuthority scheme) rest

/-- A URL of a file from the text after the colon. -/
def fileUrl (text : List Char) : Except UrlError Url := do
  let scheme := "file".toList
  let noHost : Authority := ⟨[], none, none, none⟩
  let isSlash := fun (c : Char) => c = '/' || c = '\\'
  match text with
  | a :: b :: rest =>
    if isSlash a && isSlash b then
      let hostText := rest.takeWhile (!endsAuthority true ·)
      if isDrive hostText then
        return assemble scheme (some noHost) (.segments ∘ pathOf scheme) rest
      else
        let after := rest.drop hostText.length
        let host ← if hostText = [] then pure none else (hostOf hostText).map some
        let host := if host = some (.domain "localhost".toList) then none else host
        let url := assemble scheme (some { noHost with host }) (pathAfterAuthority scheme) after
        return url
    else if isSlash a then
      return assemble scheme (some noHost) (.segments ∘ pathOf scheme) (b :: rest)
    else return assemble scheme (some noHost) (.segments ∘ pathOf scheme) text
  | [a] =>
    return assemble scheme (some noHost) (.segments ∘ pathOf scheme) (if isSlash a then [] else [a])
  | [] => return assemble scheme (some noHost) (.segments ∘ pathOf scheme) []

/-- The URL that a text is. Blanks and controls around it do not count, nor do line ends and tabs
    inside it. -/
def parse (input : String) : Except UrlError Url :=
  let trimmed := Text.trim (fun c => c.toNat ≤ 0x20) input.toList
  let text := trimmed.filter fun c => c ≠ '\t' ∧ c ≠ '\n' ∧ c ≠ '\r'
  match scheme? text with
  | none => .error .relative
  | some (scheme, rest) =>
    if scheme = "file".toList then fileUrl rest
    else if isSpecialScheme scheme then
      afterSlashes scheme (rest.dropWhile fun c => c = '/' || c = '\\')
    else
      match rest with
      | '/' :: '/' :: rest => afterSlashes scheme rest
      | '/' :: rest => .ok (assemble scheme none (.segments ∘ pathOf scheme) rest)
      | rest => .ok (assemble scheme none (fun path => .opaquePath (percentEncode controlSet path)) rest)

end StepRunner.Url
