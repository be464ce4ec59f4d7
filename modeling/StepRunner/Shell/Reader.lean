import StepRunner.Shell.Command
import StepRunner.Text.Decimal

namespace StepRunner.Shell

/-- Splits a text at the end of what is open. `awaited` holds the closing characters, the innermost
    first. The first part lacks the last closing character. -/
def enclosed : (awaited : List Char) → List Char → Option (List Char × List Char)
  | [], rest => some ([], rest)
  | _ :: _, [] => none
  | '\'' :: outer, c :: rest =>
    add [c] (outer = [] ∧ c = '\'') (enclosed (if c = '\'' then outer else '\'' :: outer) rest)
  | _ :: _, ['\\'] => none
  | awaited, '\\' :: c :: rest => add ['\\', c] false (enclosed awaited rest)
  | '"' :: outer, '"' :: rest => add ['"'] (outer = []) (enclosed outer rest)
  | awaited, '$' :: '\x7b' :: rest =>
    add ['$', '\x7b'] false (enclosed ('\x7d' :: awaited) rest)
  | awaited, '$' :: '(' :: rest => add ['$', '('] false (enclosed (')' :: awaited) rest)
  | close :: outer, c :: rest =>
    if c = close then add [c] (outer = []) (enclosed outer rest)
    else if c = '`' then add [c] false (enclosed ('`' :: close :: outer) rest)
    else if close ≠ '"' ∧ (c = '"' ∨ c = '\'') then
      add [c] false (enclosed (c :: close :: outer) rest)
    else if close = ')' ∧ c = '(' then add [c] false (enclosed (')' :: close :: outer) rest)
    else add [c] false (enclosed (close :: outer) rest)
where
  /-- Puts characters before the first part, unless they end it. -/
  add (text : List Char) (ends : Bool) (result : Option (List Char × List Char)) :
      Option (List Char × List Char) :=
    result.map fun (inside, rest) => (if ends then inside else text ++ inside, rest)

/-- Whether a name may start with the character. -/
def isNameStart (c : Char) : Bool := c.isAlpha || c = '_'

/-- Whether a name may go on with the character. -/
def isNameChar (c : Char) : Bool := isNameStart c || Text.isDigit c

/-- Whether the character is a parameter of its own. -/
def isSpecial (c : Char) : Bool := "@*#?-$!".toList.contains c

/-- The name of a parameter at the start of a text, and what follows it. -/
def parameterName (manyDigits : Bool) : List Char → Option (List Char × List Char)
  | [] => none
  | c :: rest =>
    if isNameStart c then
      some (c :: rest.takeWhile isNameChar, rest.dropWhile isNameChar)
    else if Text.isDigit c then
      if manyDigits then some (c :: rest.takeWhile Text.isDigit, rest.dropWhile Text.isDigit)
      else some ([c], rest)
    else if isSpecial c then some ([c], rest)
    else none

/-- What stands after the name inside the braces of a parameter. -/
def useOf : List Char → Option Use
  | [] => some .value
  | ':' :: '-' :: word => some (.fallback true word)
  | ':' :: '=' :: word => some (.assign true word)
  | ':' :: '?' :: word => some (.demand true word)
  | ':' :: '+' :: word => some (.instead true word)
  | '-' :: word => some (.fallback false word)
  | '=' :: word => some (.assign false word)
  | '?' :: word => some (.demand false word)
  | '+' :: word => some (.instead false word)
  | '#' :: '#' :: pattern => some (.withoutStart true pattern)
  | '#' :: pattern => some (.withoutStart false pattern)
  | '%' :: '%' :: pattern => some (.withoutEnd true pattern)
  | '%' :: pattern => some (.withoutEnd false pattern)
  | _ => none

/-- The inside of the braces of a parameter. -/
def bracedParameter (quoted : Bool) (inside : List Char) : Option WordPart :=
  match inside with
  | '#' :: c :: rest =>
    match parameterName true (c :: rest) with
    | some (name, []) => some (.parameter quoted name .length)
    | _ => (useOf (c :: rest)).map (.parameter quoted ['#'])
  | _ => do
    let (name, rest) ← parameterName true inside
    return .parameter quoted name (← useOf rest)

/-- What a dollar sign stands for, given what follows it. -/
def dollar (quoted : Bool) (text : List Char) : Option (WordPart × List Char) :=
  match text with
  | '\x7b' :: rest => do
    let (inside, rest) ← enclosed ['\x7d'] rest
    return (← bracedParameter quoted inside, rest)
  | '(' :: rest => do
    let (inside, rest) ← enclosed [')'] rest
    match inside with
    | '(' :: expression =>
      if expression.getLast? = some ')' then
        return (.arithmetic quoted expression.dropLast, rest)
      else return (.output quoted inside, rest)
    | _ => return (.output quoted inside, rest)
  | _ =>
    match parameterName false text with
    | some (name, rest) => some (.parameter quoted name .value, rest)
    | none => some (if quoted then .quoted ['$'] else .plain ['$'], text)

/-- The script between two grave accents, where a backslash may stand before an accent, a dollar
    sign and itself. -/
def unescapeScript : List Char → List Char
  | '\\' :: c :: rest =>
    if c = '`' ∨ c = '$' ∨ c = '\\' then c :: unescapeScript rest
    else '\\' :: c :: unescapeScript rest
  | c :: rest => c :: unescapeScript rest
  | [] => []

/-- Whether the character ends a word. -/
def endsWord (c : Char) : Bool := " \t\n;&|<>()".toList.contains c

/-- The parts of a text between double quotes, or of one that counts as quoted. -/
def quotedParts : (fuel : Nat) → List Char → Option Word
  | 0, _ => none
  | _ + 1, [] => some []
  | fuel + 1, '\\' :: '\n' :: rest => quotedParts fuel rest
  | fuel + 1, '\\' :: c :: rest =>
    if c = '$' ∨ c = '`' ∨ c = '"' ∨ c = '\\' then
      (quotedParts fuel rest).map (.quoted [c] :: ·)
    else (quotedParts fuel rest).map (.quoted ['\\', c] :: ·)
  | fuel + 1, '$' :: rest => do
    let (part, rest) ← dollar true rest
    return part :: (← quotedParts fuel rest)
  | fuel + 1, '`' :: rest => do
    let (inside, rest) ← enclosed ['`'] rest
    return .output true (unescapeScript inside) :: (← quotedParts fuel rest)
  | fuel + 1, c :: rest => (quotedParts fuel rest).map (.quoted [c] :: ·)

/-- The word at the start of a text and what follows it. With `whole` nothing ends the word but
    the end of the text. -/
def readWord (whole : Bool) : (fuel : Nat) → List Char → Option (Word × List Char)
  | 0, _ => none
  | _ + 1, [] => some ([], [])
  | fuel + 1, '\\' :: '\n' :: rest => readWord whole fuel rest
  | fuel + 1, '\\' :: c :: rest => more (.quoted [c]) (readWord whole fuel rest)
  | _ + 1, ['\\'] => some ([.quoted ['\\']], [])
  | fuel + 1, '\'' :: rest => do
    let (inside, rest) ← enclosed ['\''] rest
    more (.quoted inside) (readWord whole fuel rest)
  | fuel + 1, '"' :: rest => do
    let (inside, rest) ← enclosed ['"'] rest
    let parts ← quotedParts (inside.length + 1) inside
    let (word, rest) ← readWord whole fuel rest
    return ((if inside = [] then [.quoted []] else parts) ++ word, rest)
  | fuel + 1, '$' :: rest => do
    let (part, rest) ← dollar false rest
    more part (readWord whole fuel rest)
  | fuel + 1, '`' :: rest => do
    let (inside, rest) ← enclosed ['`'] rest
    more (.output false (unescapeScript inside)) (readWord whole fuel rest)
  | fuel + 1, c :: rest =>
    if !whole && endsWord c then some ([], c :: rest)
    else
      match readWord whole fuel rest with
      | some (.plain text :: word, rest) => some (.plain (c :: text) :: word, rest)
      | result => more (.plain [c]) result
where
  /-- Puts a part before a word. -/
  more (part : WordPart) (result : Option (Word × List Char)) : Option (Word × List Char) :=
    result.map fun (word, rest) => (part :: word, rest)

/-- Drops blanks, joined lines and a comment. -/
def skipBlanks : List Char → List Char
  | ' ' :: rest | '\t' :: rest => skipBlanks rest
  | '\\' :: '\n' :: rest => skipBlanks rest
  | '#' :: rest => rest.dropWhile (· ≠ '\n')
  | rest => rest

/-- Drops blanks, comments and line ends. -/
def skipLines : (fuel : Nat) → List Char → List Char
  | 0, text => text
  | fuel + 1, text =>
    match skipBlanks text with
    | '\n' :: rest => skipLines fuel rest
    | rest => rest

/-- The words that mean something where a command may start. -/
def reserved : List String :=
  ["if", "then", "else", "elif", "fi", "do", "done", "case", "esac", "while", "until", "for",
    "\x7b", "\x7d", "!", "in"]

/-- The reserved word at the start of a text, and what follows it. -/
def keyword? (text : List Char) : Option (String × List Char) :=
  let word := text.takeWhile (!endsWord ·)
  let name := String.ofList word
  if reserved.contains name then some (name, text.drop word.length) else none

/-- Why a script cannot be read. -/
inductive SyntaxError where
  | unexpectedEnd
  | unexpected (token : List Char)
deriving DecidableEq, Repr

abbrev Reading := Except SyntaxError (Command × List Char)

/-- The operator or word at the start of a text, as a message names it. -/
def tokenOf (text : List Char) : List Char :=
  match text with
  | ';' :: ';' :: _ => [';', ';']
  | '&' :: '&' :: _ => ['&', '&']
  | '|' :: '|' :: _ => ['|', '|']
  | c :: rest => if endsWord c then [c] else c :: rest.takeWhile (!endsWord ·)
  | [] => []

/-- The complaint about a text that goes on as it must not. -/
def complaint (text : List Char) : SyntaxError :=
  match text with
  | [] => .unexpectedEnd
  | '\n' :: _ => .unexpected "newline".toList
  | _ => .unexpected (tokenOf text)

/-- Reads one keyword that has to stand here. -/
def expect (keyword : String) (text : List Char) : Except SyntaxError (List Char) :=
  match keyword? text with
  | some (name, rest) => if name = keyword then .ok rest else .error (complaint text)
  | none => .error (complaint text)

/-- A word that has to stand here. -/
def wordHere (text : List Char) : Except SyntaxError (Word × List Char) :=
  match readWord false (text.length + 1) text with
  | none => .error .unexpectedEnd
  | some ([], rest) => .error (complaint rest)
  | some (word, rest) => .ok (word, rest)

/-- A redirection at the start of a text, if there is one. -/
def redirect? (text : List Char) : Option (Except SyntaxError (Redirect × List Char)) :=
  let digits := text.takeWhile Text.isDigit
  let number := if digits = [] then none else Text.decimalValue? digits
  let target := fun (standard : Nat) (direction : Direction) (rest : List Char) =>
    some (do
      let (word, rest) ← wordHere (skipBlanks rest)
      return (⟨number.getD standard, direction, word⟩, rest))
  match text.drop digits.length with
  | '>' :: '>' :: rest => target 1 .append rest
  | '>' :: '&' :: rest => target 1 .copy rest
  | '>' :: '|' :: rest => target 1 .write rest
  | '>' :: rest => target 1 .write rest
  | '<' :: '&' :: rest => target 0 .copy rest
  | '<' :: '<' :: rest => some (.error (.unexpected ('<' :: '<' :: rest.take 0)))
  | '<' :: rest => target 0 .read rest
  | _ => none

/-- The redirections at the start of a text. -/
def redirects : (fuel : Nat) → List Char → Except SyntaxError (List Redirect × List Char)
  | 0, text => .ok ([], text)
  | fuel + 1, text =>
    let text := skipBlanks text
    match redirect? text with
    | none => .ok ([], text)
    | some (.error e) => .error e
    | some (.ok (first, rest)) => do
      let (others, rest) ← redirects fuel rest
      return (first :: others, rest)

/-- The name and value of a word that is an assignment. -/
def assignment? : Word → Option (List Char × Word)
  | .plain text :: rest => do
    let name := text.takeWhile (· ≠ '=')
    let value ← (text.drop name.length).tail?
    if name.head?.any isNameStart ∧ name.all isNameChar then
      some (name, if value = [] then rest else .plain value :: rest)
    else none
  | _ => none

/-- The rest of a simple command: its words and redirections in any order. -/
def simpleRest (line : Nat) : (fuel : Nat) → (assignments : List (List Char × Word)) →
    (words : List Word) → (redirects : List Redirect) → List Char → Reading
  | 0, _, _, _, _ => .error .unexpectedEnd
  | fuel + 1, assignments, words, led, text =>
    let text := skipBlanks text
    match redirect? text with
    | some (.error e) => .error e
    | some (.ok (redirect, rest)) =>
      simpleRest line fuel assignments words (led ++ [redirect]) rest
    | none =>
      match readWord false (text.length + 1) text with
      | none => .error .unexpectedEnd
      | some ([], rest) =>
        if assignments = [] ∧ words = [] ∧ led = [] then .error (complaint text)
        else .ok (.simple line assignments words led, rest)
      | some (word, rest) =>
        match if words = [] then assignment? word else none with
        | some assignment => simpleRest line fuel (assignments ++ [assignment]) words led rest
        | none => simpleRest line fuel assignments (words ++ [word]) led rest

/-- Words up to the end of a command. -/
def wordList : (fuel : Nat) → List Char → Except SyntaxError (List Word × List Char)
  | 0, text => .ok ([], text)
  | fuel + 1, text =>
    let text := skipBlanks text
    match text with
    | [] => .ok ([], [])
    | c :: _ =>
      if endsWord c then .ok ([], text)
      else do
        let (word, rest) ← wordHere text
        let (others, rest) ← wordList fuel rest
        return (word :: others, rest)

/-- The patterns of a branch and the bracket after them. -/
def patterns : (fuel : Nat) → List Char → Except SyntaxError (List Word × List Char)
  | 0, _ => .error .unexpectedEnd
  | fuel + 1, text => do
    let (word, rest) ← wordHere (skipBlanks text)
    match skipBlanks rest with
    | '|' :: rest =>
      let (others, rest) ← patterns fuel rest
      return (word :: others, rest)
    | ')' :: rest => return ([word], rest)
    | rest => throw (complaint rest)

/-- Whether a list of commands ends here. -/
def endsList (text : List Char) : Bool :=
  match text with
  | [] | ')' :: _ | ';' :: ';' :: _ => true
  | _ =>
    match keyword? text with
    | some (name, _) =>
      ["then", "else", "elif", "fi", "do", "done", "esac", "\x7d"].contains name
    | none => false

mutual

/-- Commands up to the end of a body; `total` is the number of lines of the script. -/
def readList (total : Nat) : (fuel : Nat) → List Char → Reading
  | 0, _ => .error .unexpectedEnd
  | fuel + 1, text =>
    let text := skipLines (text.length + 1) text
    if endsList text then .ok (.nothing, text)
    else do
      let (first, rest) ← readAndOr total fuel text
      match skipBlanks rest with
      | ';' :: ';' :: rest => return (first, ';' :: ';' :: rest)
      | ';' :: rest | '&' :: rest | '\n' :: rest =>
        let (second, rest) ← readList total fuel rest
        return (.sequence first second, rest)
      | rest => return (first, rest)

/-- A body that must not be empty, and the keyword after it. -/
def readBody (total : Nat) (keyword : String) : (fuel : Nat) → List Char → Reading
  | 0, _ => .error .unexpectedEnd
  | fuel + 1, text => do
    match ← readList total fuel text with
    | (.nothing, rest) => throw (complaint rest)
    | (body, rest) => return (body, ← expect keyword rest)

/-- Pipelines joined by `&&` and `||`. -/
def readAndOr (total : Nat) : (fuel : Nat) → List Char → Reading
  | 0, _ => .error .unexpectedEnd
  | fuel + 1, text => do
    let (first, rest) ← readPipeline total fuel text
    readAndOrRest total fuel first rest

/-- What follows the first pipelines. -/
def readAndOrRest (total : Nat) : (fuel : Nat) → Command → List Char → Reading
  | 0, _, _ => .error .unexpectedEnd
  | fuel + 1, first, rest => do
    match skipBlanks rest with
    | '&' :: '&' :: rest =>
      let (second, rest) ← readPipeline total fuel (skipLines (rest.length + 1) rest)
      readAndOrRest total fuel (.both first second) rest
    | '|' :: '|' :: rest =>
      let (second, rest) ← readPipeline total fuel (skipLines (rest.length + 1) rest)
      readAndOrRest total fuel (.either first second) rest
    | rest => return (first, rest)

/-- Commands joined by `|`, and a negation before them. -/
def readPipeline (total : Nat) : (fuel : Nat) → List Char → Reading
  | 0, _ => .error .unexpectedEnd
  | fuel + 1, text => do
    match keyword? text with
    | some ("!", rest) =>
      let (body, rest) ← readPipeline total fuel (skipBlanks rest)
      return (.negation body, rest)
    | _ =>
      let (first, rest) ← readCommand total fuel text
      match skipBlanks rest with
      | '|' :: '|' :: rest => return (first, '|' :: '|' :: rest)
      | '|' :: rest =>
        let (second, rest) ← readPipeline total fuel (skipLines (rest.length + 1) rest)
        return (.pipe first second, rest)
      | rest => return (first, rest)

/-- One command. -/
def readCommand (total : Nat) : (fuel : Nat) → List Char → Reading
  | 0, _ => .error .unexpectedEnd
  | fuel + 1, text => do
    let text := skipBlanks text
    let compound := fun (result : Command × List Char) => do
      let (led, rest) ← redirects (result.2.length + 1) result.2
      return (if led = [] then result.1 else .redirected result.1 led, rest)
    match text with
    | '(' :: rest =>
      match ← readList total fuel rest with
      | (.nothing, rest) => throw (complaint rest)
      | (body, ')' :: rest) => compound (.subshell body, rest)
      | (_, rest) => throw (complaint rest)
    | _ =>
      match keyword? text with
      | some ("\x7b", rest) => compound (← readBody total "\x7d" fuel rest)
      | some ("if", rest) => compound (← readChoice total fuel rest)
      | some ("while", rest) =>
        let (condition, rest) ← readBody total "do" fuel rest
        let (body, rest) ← readBody total "done" fuel rest
        compound (.loop true condition body, rest)
      | some ("until", rest) =>
        let (condition, rest) ← readBody total "do" fuel rest
        let (body, rest) ← readBody total "done" fuel rest
        compound (.loop false condition body, rest)
      | some ("for", rest) =>
        let rest := skipBlanks rest
        let name := rest.takeWhile isNameChar
        let rest := rest.drop name.length
        if !(name.head?.any isNameStart) then throw (complaint rest)
        let rest := skipLines (rest.length + 1) rest
        let (words, rest) ← match keyword? rest with
          | some ("in", rest) =>
            let (words, rest) ← wordList (rest.length + 1) rest
            pure (some words, rest)
          | _ => pure (none, rest)
        let rest := match skipBlanks rest with
          | ';' :: rest => rest
          | rest => rest
        let rest ← expect "do" (skipLines (rest.length + 1) rest)
        let (body, rest) ← readBody total "done" fuel rest
        compound (.forEach name words body, rest)
      | some ("case", rest) =>
        let (subject, rest) ← wordHere (skipBlanks rest)
        let rest ← expect "in" (skipLines (rest.length + 1) rest)
        compound (← readBranches total fuel subject [] rest)
      | some (_, _) => throw (complaint text)
      | none =>
        let line := total - text.count '\n'
        simpleRest line (text.length + 1) [] [] [] text

/-- A choice after its first keyword. -/
def readChoice (total : Nat) : (fuel : Nat) → List Char → Reading
  | 0, _ => .error .unexpectedEnd
  | fuel + 1, text => do
    let (condition, rest) ← readBody total "then" fuel text
    let (consequent, rest) ← readList total fuel rest
    match keyword? rest with
    | some ("fi", rest) => return (.choice condition consequent .nothing, rest)
    | some ("else", rest) =>
      let (alternative, rest) ← readBody total "fi" fuel rest
      return (.choice condition consequent alternative, rest)
    | some ("elif", rest) =>
      let (alternative, rest) ← readChoice total fuel rest
      return (.choice condition consequent alternative, rest)
    | _ => throw (complaint rest)

/-- The branches of a selection. -/
def readBranches (total : Nat) : (fuel : Nat) → Word → List (List Word × Command) →
    List Char → Reading
  | 0, _, _, _ => .error .unexpectedEnd
  | fuel + 1, subject, branches, text => do
    let text := skipLines (text.length + 1) text
    match keyword? text with
    | some ("esac", rest) => return (.select subject branches, rest)
    | _ =>
      let text := match text with
        | '(' :: rest => rest
        | text => text
      let (words, rest) ← patterns (text.length + 1) text
      let (body, rest) ← readList total fuel rest
      let branches := branches ++ [(words, body)]
      match skipBlanks rest with
      | ';' :: ';' :: rest => readBranches total fuel subject branches rest
      | rest =>
        let rest ← expect "esac" (skipLines (rest.length + 1) rest)
        return (.select subject branches, rest)

end

/-- The commands up to the end of a line, and what follows it; `none` at the end of the script. -/
def readLine (total : Nat) (text : List Char) : Except SyntaxError (Option (Command × List Char)) :=
  let text := skipLines (text.length + 1) text
  if text = [] then .ok none
  else (commands (text.length + 1) text).map some
where
  /-- Lists of pipelines up to the end of the line. -/
  commands : (fuel : Nat) → List Char → Reading
    | 0, _ => .error .unexpectedEnd
    | fuel + 1, text => do
      let (first, rest) ← readAndOr total (8 * text.length + 8) text
      match skipBlanks rest with
      | [] => return (first, [])
      | '\n' :: rest => return (first, rest)
      | ';' :: ';' :: rest => throw (complaint (';' :: ';' :: rest))
      | ';' :: rest | '&' :: rest =>
        match skipBlanks rest with
        | [] => return (first, [])
        | '\n' :: rest => return (first, rest)
        | rest =>
          let (second, rest) ← commands fuel rest
          return (.sequence first second, rest)
      | rest => throw (complaint rest)

end StepRunner.Shell
