import StepRunner.Shell.Arithmetic
import StepRunner.Shell.Condition
import StepRunner.Shell.Fields
import StepRunner.Shell.Reader
import StepRunner.Shell.Tool

namespace StepRunner.Shell

/-- The number by which a shell knows itself. -/
def processNumber : Nat := 4000

/-- The place of the file that swallows everything. -/
def nullDevice : Location := ["null", "dev"]

/-- The value of a parameter. -/
def parameterValue? (s : State) (name : List Char) : Option (List Char) :=
  match name with
  | ['?'] => some (Text.decimal s.status)
  | ['#'] => some (Text.decimal s.parameters.length)
  | ['$'] => some (Text.decimal processNumber)
  | ['0'] => some s.name
  | ['@'] | ['*'] =>
    if s.parameters = [] then none else some ([' '].intercalate s.parameters)
  | ['-'] => some []
  | ['!'] => none
  | c :: _ =>
    if Text.isDigit c then s.parameters[(Text.decimalValue? name).getD 0 - 1]?
    else s.get? name
  | [] => none

/-- The characters that separate fields. -/
def separators (s : State) : List Char := (s.get? "IFS".toList).getD [' ', '\t', '\n']

/-- The shortest or longest start of a text that a pattern matches is taken away. -/
def dropMatchingStart (longest : Bool) (pattern : List PatternItem) (text : List Char) :
    List Char :=
  let counts := List.range (text.length + 1)
  let counts := if longest then counts.reverse else counts
  match counts.find? fun n => isMatch pattern (text.take n) with
  | some n => text.drop n
  | none => text

/-- The shortest or longest end of a text that a pattern matches is taken away. -/
def dropMatchingEnd (longest : Bool) (pattern : List PatternItem) (text : List Char) :
    List Char :=
  let counts := List.range (text.length + 1)
  let counts := if longest then counts else counts.reverse
  match counts.find? fun n => isMatch pattern (text.drop n) with
  | some n => text.take n
  | none => text

/-- Opens a file for writing. -/
def openForWriting (append : Bool) (path : String) : Evaluation (Option Stream) := do
  let s ← get
  match s.tree.find s.workDir true path with
  | .ok (.entry _ .directory) =>
    complain (ofText ("cannot create " ++ path ++ ": Is a directory"))
    return none
  | .ok (.entry _ (.link _)) => return none
  | .ok (.entry loc (.file data)) =>
    if loc = nullDevice then return some .nowhere
    if !append then
      set { s with tree := s.tree.put loc (.file { data with contents := [], modified := s.now }) }
    return some (.file loc)
  | .ok (.vacant loc) =>
    if Disk.endsInSlash path then
      complain (ofText ("cannot create " ++ path ++ ": Is a directory"))
      return none
    set { s with tree := s.tree.put loc (.file ⟨[], s.now, false⟩) }
    return some (.file loc)
  | .error e =>
    let why := if e = .notFound then "Directory nonexistent" else reason e
    complain (ofText ("cannot create " ++ path ++ ": " ++ why))
    return none

/-- Leads a descriptor elsewhere. Tells whether that was possible. -/
def redirect (descriptor : Nat) (direction : Direction) (target : List Char) : Evaluation Bool := do
  let s ← get
  match direction with
  | .read =>
    match fileContents s (toText target) with
    | .ok contents =>
      set (if descriptor = 0 then { s with input := contents } else s)
      return true
    | .error e =>
      let why := if e = .notFound then "No such file" else reason e
      complain (ofText ("cannot open " ++ toText target ++ ": " ++ why))
      return false
  | .copy =>
    if target = ['-'] then
      set { s with descriptors := s.descriptors.filter (·.1 ≠ descriptor) }
      return true
    else
      match (Text.unsigned? 9 target).bind fun n => s.descriptors.lookup n with
      | some stream =>
        set (s.lead descriptor stream)
        return true
      | none =>
        complain (target ++ ": Bad file descriptor".toList)
        return false
  | .write | .append =>
    match ← openForWriting (direction = .append) (toText target) with
    | some stream =>
      modify fun s => s.lead descriptor stream
      return true
    | none => return false

/-- The complaint about a script that cannot be read. -/
def complainOf : SyntaxError → Evaluation Unit
  | .unexpectedEnd => complain "Syntax error: end of file unexpected".toList
  | .unexpected token => complain ("Syntax error: \"".toList ++ token ++ "\" unexpected".toList)

/-- Gives up over an expression without a value. -/
def refuse {α : Type} (e : ArithmeticError) (expression : List Char) : Evaluation α := do
  let about := fun (why : String) =>
    ("arithmetic expression: " ++ why ++ ": \"").toList ++ expression ++ ['"']
  complain (match e with
    | .expectingPrimary => about "expecting primary"
    | .expectingEnd => about "expecting EOF"
    | .divisionByZero => about "division by zero"
    | .illegalNumber text => "Illegal number: ".toList ++ text)
  throw (.leave 2)

/-- Runs commands with descriptors and input that are given back afterwards. -/
def withOpenFiles (body : Evaluation Unit) : Evaluation Unit := do
  let s ← get
  let restore : Evaluation Unit :=
    modify fun after => { after with descriptors := s.descriptors, input := s.input }
  try body catch interrupt => do
    restore
    throw interrupt
  restore

/-- Runs commands on a copy of the shell: what they leave is the file tree, the outputs, the time
    and the status. -/
def inCopy (body : Evaluation Unit) : Evaluation Unit := do
  let s ← get
  let restore : Evaluation Unit := modify fun after =>
    { s with
      tree := after.tree, status := after.status, remaining := after.remaining,
      collected := after.collected }
  try body catch interrupt =>
    match interrupt with
    | .leave status => setStatus status
    | .killed | .unfinished => do
      restore
      throw interrupt
    | .breakLoop _ | .nextRound _ => pure ()
  restore

/-- Runs commands in a copy of the shell and gives what they wrote to descriptor 1. -/
def outputOf (body : Evaluation Unit) : Evaluation (List UInt8) := do
  let s ← get
  let index := s.collected.length
  set { s with collected := s.collected ++ [[]] }
  inCopy do
    modify fun s => s.lead 1 (.collected index)
    body
  let after ← get
  set { after with collected := after.collected.take index }
  return (after.collected.getD index []).reverse

/-- The octets without line feeds at their end. -/
def withoutLastLines (octets : List UInt8) : List UInt8 :=
  (octets.reverse.dropWhile (· = 0x0A)).reverse

/-- One line of the input: the line and the rest. -/
def inputLine (octets : List UInt8) : List UInt8 × List UInt8 :=
  (octets.takeWhile (· ≠ 0x0A), (octets.dropWhile (· ≠ 0x0A)).drop 1)

/-- The status that a number text gives, if it is one. -/
def statusNumber? (text : List Char) : Option Nat :=
  if text.all Text.isDigit ∧ text ≠ [] then
    (Text.decimalValue? text).bind fun n => if n < Nat.pow 2 31 then some n else none
  else none

/-- The commands of the shell itself, apart from those that run other commands. -/
def builtin? (name : List Char) : Option (List (List Char) → Evaluation Unit) :=
  match String.ofList name with
  | ":" | "true" => some fun _ => setStatus 0
  | "false" => some fun _ => setStatus 1
  | "echo" => some fun arguments => do
    put 1 (echoed arguments)
    setStatus 0
  | "printf" => some fun arguments => do
    match arguments with
    | [] =>
      complain "printf: usage: printf format [arg ...]".toList
      setStatus 2
    | format :: values =>
      let (text, bad) := printed format values
      put 1 text
      for value in bad do
        complain ("printf: ".toList ++ value ++ ": expected numeric value".toList)
      setStatus (if bad = [] then 0 else 1)
  | "test" => some fun arguments => test "test" arguments
  | "[" => some fun arguments =>
    if arguments.getLast? = some [']'] then test "[" arguments.dropLast
    else do
      complain "[: missing ]".toList
      setStatus 2
  | "exit" => some fun arguments => do
    match arguments with
    | [] => throw (.leave (← get).status)
    | text :: _ =>
      match statusNumber? text with
      | some n => throw (.leave (n % 256))
      | none =>
        complain ("exit: Illegal number: ".toList ++ text)
        throw (.leave 2)
  | "break" => some fun arguments => do
    throw (.breakLoop ((arguments.head?.bind statusNumber?).getD 1))
  | "continue" => some fun arguments => do
    throw (.nextRound ((arguments.head?.bind statusNumber?).getD 1))
  | "kill" => some fun arguments => do
    let target := arguments.filter fun a => a.head? ≠ some '-'
    if target.getLast? = some (Text.decimal processNumber) then throw .killed
    complain "kill: No such process".toList
    setStatus 1
  | "pwd" => some fun _ => do
    let s ← get
    put 1 (ofText (FileTree.pathTo s.workDir ++ "\n"))
    setStatus 0
  | "cd" => some fun arguments => do
    let s ← get
    let path := arguments.headD ((s.get? "HOME".toList).getD [])
    match s.tree.stat s.workDir (toText path) with
    | .ok (loc, .directory) => set { s with workDir := loc, status := 0 }
    | _ =>
      complain ("cd: can't cd to ".toList ++ path)
      setStatus 2
  | "export" => some fun arguments => do
    for argument in arguments do
      let name := argument.takeWhile (· ≠ '=')
      if name ≠ argument then
        modify fun s => s.assign name (argument.drop (name.length + 1))
      modify fun s => s.exportName name
    setStatus 0
  | "unset" => some fun arguments => do
    modify fun s => { s with
      bindings := s.bindings.filter fun v => !arguments.contains v.name, status := 0 }
  | "shift" => some fun arguments => do
    let s ← get
    let count := (arguments.head?.bind statusNumber?).getD 1
    if s.parameters.length < count then
      complain "shift: can't shift that many".toList
      throw (.leave 2)
    set { s with parameters := s.parameters.drop count, status := 0 }
  | "set" => some fun arguments => do
    modify fun s => { s with
      parameters := if arguments.head? = some ['-', '-'] then arguments.drop 1 else s.parameters,
      status := 0 }
  | "read" => some fun arguments => do
    let s ← get
    let (line, rest) := inputLine s.input
    let names := arguments.filter fun a => a.head? ≠ some '-'
    let found := !s.input.isEmpty
    let ended := s.input.contains 0x0A
    set { s with input := rest }
    let words := (fields (separators s) none ((ofOctets line).map .value)).map fun field =>
      field.map (·.1)
    for (name, i) in names.zipIdx do
      let value := if i + 1 = names.length then [' '].intercalate (words.drop i)
        else words.getD i []
      modify fun s => s.assign name value
    setStatus (if found ∧ ended then 0 else 1)
  | "wait" | "umask" | "trap" => some fun _ => setStatus 0
  | _ => none
where
  /-- A test and its complaint. -/
  test (name : String) (arguments : List (List Char)) : Evaluation Unit := do
    match holds (← get) arguments with
    | .ok result => setStatus (if result then 0 else 1)
    | .error message =>
      complain (name.toList ++ ": ".toList ++ message)
      setStatus 2

mutual

/-- The parts that a word stands for. -/
def expand : (fuel : Nat) → Word → Evaluation (List Expanded)
  | 0, _ => throw .unfinished
  | fuel + 1, word => do
    let parts ← word.mapM fun part =>
      match part with
      | .plain text => return text.map Expanded.plain
      | .quoted text => return .mark :: text.map Expanded.quoted
      | .output quoted script => do
        let octets ← outputOf (runScript fuel script)
        let text := ofOctets (withoutLastLines (octets.filter (· ≠ 0)))
        return if quoted then .mark :: text.map Expanded.quoted else text.map Expanded.value
      | .parameter quoted name use => expandParameter fuel quoted name use
      | .arithmetic quoted expression => expandArithmetic fuel quoted expression
    return parts.flatten

/-- The number that an expression stands for. -/
def expandArithmetic : (fuel : Nat) → (quoted : Bool) → List Char → Evaluation (List Expanded)
  | 0, _, _ => throw .unfinished
  | fuel + 1, quoted, expression => do
    let parts ← expand fuel ((quotedParts (expression.length + 1) expression).getD [])
    let text := (unsplit parts).map (·.1)
    match Arithmetic.ofText text with
    | .error e => refuse e text
    | .ok parsed =>
      match parsed.eval (← get) with
      | .error e => refuse e text
      | .ok (value, s) =>
        set s
        let digits := (toString value).toList
        return if quoted then .mark :: digits.map Expanded.quoted else digits.map Expanded.value

/-- The parts that a parameter stands for. -/
def expandParameter : (fuel : Nat) → (quoted : Bool) → List Char → Use → Evaluation (List Expanded)
  | 0, _, _, _ => throw .unfinished
  | fuel + 1, quoted, name, use => do
    let s ← get
    let value? := parameterValue? s name
    let shown := fun (text : List Char) =>
      if quoted then .mark :: text.map Expanded.quoted else text.map Expanded.value
    let all := fun (_ : Unit) =>
      if name = ['@'] ∨ (name = ['*'] ∧ quoted = false) then
        match s.parameters with
        | [] => []
        | first :: others =>
          shown first ++ others.flatMap fun value => .boundary :: shown value
      else shown (value?.getD [])
    let other := fun (text : List Char) =>
      match if quoted then quotedParts (text.length + 1) text
        else (readWord true (text.length + 1) text).map (·.1) with
      | some word => do
        let parts ← expand fuel word
        return if quoted then .mark :: parts else parts.map fun
          | .plain c => .value c
          | part => part
      | none => do
        complain "Bad substitution".toList
        throw (.leave 2)
    let missing := fun (orEmpty : Bool) =>
      value? = none ∨ (orEmpty = true ∧ value? = some [])
    match use with
    | .value => return all ()
    | .length => return shown (Text.decimal (value?.getD []).length)
    | .fallback orEmpty word => if missing orEmpty then other word else return all ()
    | .instead orEmpty word => if missing orEmpty then return shown [] else other word
    | .assign orEmpty word =>
      if missing orEmpty then
        let parts ← other word
        let value := (unsplit parts).map (·.1)
        modify fun s => s.assign name value
        return shown value
      else return all ()
    | .demand orEmpty word =>
      if missing orEmpty then
        let parts ← other word
        let message := (unsplit parts).map (·.1)
        complain (name ++ ": ".toList ++
          if message = [] then "parameter not set".toList else message)
        throw (.leave 2)
      else return all ()
    | .withoutStart longest pattern =>
      let parts ← expandPattern fuel pattern
      return shown (dropMatchingStart longest parts (value?.getD []))
    | .withoutEnd longest pattern =>
      let parts ← expandPattern fuel pattern
      return shown (dropMatchingEnd longest parts (value?.getD []))

/-- The pattern that the text of a word stands for. -/
def expandPattern : (fuel : Nat) → List Char → Evaluation (List PatternItem)
  | 0, _ => throw .unfinished
  | fuel + 1, text => do
    match readWord true (text.length + 1) text with
    | some (word, _) => return toPattern (unsplit (← expand fuel word))
    | none => return []

/-- Runs a command. -/
def evaluate : (fuel : Nat) → Command → Evaluation Unit
  | 0, _ => throw .unfinished
  | fuel + 1, command => do
    match command with
    | .nothing => setStatus 0
    | .simple line assignments words led =>
      modify fun s => { s with line }
      runSimple fuel assignments words led
    | .redirected body led =>
      withOpenFiles do
        if ← openAll fuel led then evaluate fuel body else setStatus 2
    | .sequence first second =>
      evaluate fuel first
      if second matches .nothing then pure () else evaluate fuel second
    | .both first second =>
      evaluate fuel first
      if (← get).status = 0 then evaluate fuel second
    | .either first second =>
      evaluate fuel first
      if (← get).status ≠ 0 then evaluate fuel second
    | .negation body =>
      evaluate fuel body
      setStatus (if (← get).status = 0 then 1 else 0)
    | .pipe first second =>
      let octets ← outputOf (evaluate fuel first)
      inCopy do
        modify fun s => { s with input := octets }
        evaluate fuel second
    | .subshell body => inCopy (evaluate fuel body)
    | .choice condition consequent alternative =>
      evaluate fuel condition
      evaluate fuel (if (← get).status = 0 then consequent else alternative)
    | .loop whileStatus condition body => runLoop fuel whileStatus condition body 0
    | .forEach name words body =>
      let s ← get
      let values ← match words with
        | some words => expandAll fuel words
        | none => pure s.parameters
      setStatus 0
      runEach fuel name body values
    | .select subject branches =>
      let subject := (unsplit (← expand fuel subject)).map (·.1)
      setStatus 0
      runBranches fuel subject branches

/-- Runs the body of a loop while, or until, the condition holds. -/
def runLoop : (fuel : Nat) → (whileStatus : Bool) → Command → Command → (last : Nat) →
    Evaluation Unit
  | 0, _, _, _, _ => throw .unfinished
  | fuel + 1, whileStatus, condition, body, last => do
    evaluate fuel condition
    if ((← get).status = 0) = whileStatus then
      let again ← runBody fuel body
      let status := (← get).status
      if again then runLoop fuel whileStatus condition body status
    else setStatus last

/-- Runs the body of a loop once. Tells whether the loop goes on. -/
def runBody : (fuel : Nat) → Command → Evaluation Bool
  | 0, _ => throw .unfinished
  | fuel + 1, body => do
    try
      evaluate fuel body
      return true
    catch interrupt =>
      match interrupt with
      | .breakLoop levels =>
        setStatus 0
        if 1 < levels then throw (.breakLoop (levels - 1)) else return false
      | .nextRound levels =>
        setStatus 0
        if 1 < levels then throw (.nextRound (levels - 1)) else return true
      | _ => throw interrupt

/-- Runs the body of a loop for each value. -/
def runEach : (fuel : Nat) → List Char → Command → List (List Char) → Evaluation Unit
  | 0, _, _, _ => throw .unfinished
  | _ + 1, _, _, [] => pure ()
  | fuel + 1, name, body, value :: rest => do
    modify fun s => s.assign name value
    if ← runBody fuel body then runEach fuel name body rest

/-- Runs the first branch with a pattern that matches. -/
def runBranches : (fuel : Nat) → List Char → List (List Word × Command) → Evaluation Unit
  | 0, _, _ => throw .unfinished
  | _ + 1, _, [] => pure ()
  | fuel + 1, subject, (words, body) :: rest => do
    let patterns ← words.mapM fun word => return toPattern (unsplit (← expand fuel word))
    if patterns.any (isMatch · subject) then evaluate fuel body
    else runBranches fuel subject rest

/-- The fields that words stand for. -/
def expandAll : (fuel : Nat) → List Word → Evaluation (List (List Char))
  | 0, _ => throw .unfinished
  | fuel + 1, words => do
    let expansions ← words.mapM (expand fuel)
    let s ← get
    return expansions.flatMap fun parts => (fields (separators s) none parts).flatMap (pathsOf s)

/-- Leads descriptors elsewhere, in order. Tells whether that was possible. -/
def openAll : (fuel : Nat) → List Redirect → Evaluation Bool
  | 0, _ => throw .unfinished
  | _ + 1, [] => return true
  | fuel + 1, ⟨descriptor, direction, target⟩ :: rest => do
    let target := (unsplit (← expand fuel target)).map (·.1)
    if ← redirect descriptor direction target then openAll fuel rest else return false

/-- Sets variables, in order. -/
def assignAll : (fuel : Nat) → List (List Char × Word) → Evaluation Unit
  | 0, _ => throw .unfinished
  | _ + 1, [] => pure ()
  | fuel + 1, (name, word) :: rest => do
    let value := (unsplit (← expand fuel word)).map (·.1)
    modify fun s => s.assign name value
    assignAll fuel rest

/-- Runs a simple command. -/
def runSimple : (fuel : Nat) → List (List Char × Word) → List Word → List Redirect → Evaluation Unit
  | 0, _, _, _ => throw .unfinished
  | fuel + 1, assignments, words, led => do
    let arguments ← expandAll fuel words
    match arguments with
    | [] =>
      setStatus 0
      withOpenFiles do
        if !(← openAll fuel led) then setStatus 2
      assignAll fuel assignments
    | name :: arguments =>
      if name = "exec".toList then
        if !(← openAll fuel led) then throw (.leave 2)
        match arguments with
        | [] => setStatus 0
        | name :: arguments =>
          runProgram fuel name arguments
          throw (.leave (← get).status)
      else
        withOpenFiles do
          if !(← openAll fuel led) then setStatus 2
          else
            let before := (← get).bindings
            assignAll fuel assignments
            modify fun s => assignments.foldl (fun s (name, _) => s.exportName name) s
            let restore : Evaluation Unit :=
              if assignments = [] then pure ()
              else modify fun s => { s with bindings := before }
            match builtin? name with
            | some action =>
              action arguments
              restore
            | none =>
              if name = "eval".toList then
                runScript fuel ([' '].intercalate arguments)
              else if name = ['.'] then
                let s ← get
                match fileContents s (toText (arguments.headD [])) with
                | .ok contents => runScript fuel (ofOctets contents)
                | .error _ =>
                  complain (".: cannot open ".toList ++ arguments.headD [] ++
                    ": No such file".toList)
                  throw (.leave 2)
              else
                try runProgram fuel name arguments catch interrupt =>
                  if interrupt = .killed then setStatus 137 else throw interrupt
              restore

/-- Runs a program and waits for its end. -/
def runProgram : (fuel : Nat) → (name : List Char) → (arguments : List (List Char)) →
    Evaluation Unit
  | 0, _, _ => throw .unfinished
  | fuel + 1, name, arguments => do
    let s ← get
    let launch : Launch := ⟨toText name, arguments.map toText, s.environment, s.workDir⟩
    match launch.find s.tree with
    | .ok (.native program arguments) => runNative fuel program arguments
    | .ok (.unknown path) => runShell fuel (toText name :: path :: launch.arguments)
    | .error e =>
      if e = .notFound ∨ e = .notADirectory ∧ !launch.isPath then
        complain (name ++ ": not found".toList)
        setStatus 127
      else
        complain (name ++ ": ".toList ++ ofText (reason e))
        setStatus (if e = .permissionDenied then 126 else 127)

/-- Runs a native program; the first argument is the name that it is called by. -/
def runNative : (fuel : Nat) → (program : String) → (arguments : List String) → Evaluation Unit
  | 0, _, _ => throw .unfinished
  | fuel + 1, program, arguments => do
    match tool? program with
    | some action => setStatus (← action arguments.tail)
    | none => if program = "sh" then runShell fuel arguments else setStatus 127

/-- Runs another shell; the first argument is the name that it is called by. -/
def runShell : (fuel : Nat) → (arguments : List String) → Evaluation Unit
  | 0, _ => throw .unfinished
  | fuel + 1, arguments => do
    let (script, name, parameters) ← match arguments.drop 1 with
      | [] => pure (some (← get).input, arguments.headD "sh", [])
      | "-c" :: script :: rest =>
        pure (some (Text.encodeUtf8 script.toList), rest.headD (arguments.headD "sh"),
          rest.drop 1)
      | file :: rest =>
        let s ← get
        match fileContents s file with
        | .ok contents => pure (some contents, file, rest)
        | .error _ => pure (none, file, rest)
    inCopy do
      modify fun s => { s with
        bindings := s.bindings.filter (·.exported)
        name := ofText name, parameters := parameters.map ofText, status := 0, line := 1 }
      match script with
      | some contents => runScript fuel (ofOctets contents)
      | none =>
        modify fun s => { s with name := ofText (arguments.headD "sh"), line := 0 }
        complain (ofText ("cannot open " ++ name ++ ": No such file"))
        throw (.leave 2)

/-- Runs the lines of a script, each after it has been read. -/
def runScript : (fuel : Nat) → List Char → Evaluation Unit
  | 0, _ => throw .unfinished
  | fuel + 1, text => runLines fuel (text.count '\n' + 1) text

/-- Runs the lines of what is left of a script. -/
def runLines : (fuel : Nat) → (total : Nat) → List Char → Evaluation Unit
  | 0, _, _ => throw .unfinished
  | fuel + 1, total, text => do
    match readLine total text with
    | .ok none => pure ()
    | .ok (some (command, rest)) =>
      evaluate fuel command
      runLines fuel total rest
    | .error e =>
      modify fun s => { s with line := total }
      complainOf e
      throw (.leave 2)

end

end StepRunner.Shell
