import StepRunner.Shell.State
import StepRunner.Shell.Format

namespace StepRunner.Shell

/-- Writes the complaint of a tool. -/
private def toolComplaint (tool message : String) : Evaluation Unit :=
  put 2 (ofText (tool ++ ": " ++ message ++ "\n"))

/-- The words for an error number, without the number. -/
def reason : IoError → String
  | .os number => IoError.description number
  | .other text => text

/-- What a file holds, as a tool reads it. -/
def fileContents (s : State) (path : String) : Except IoError (List UInt8) :=
  match s.tree.stat s.workDir path with
  | .ok (_, .file data) => .ok data.contents
  | .ok _ => .error .isADirectory
  | .error e => .error e

/-- Joins files; `-` and no file at all stand for the input. -/
def cat (arguments : List String) : Evaluation Nat := do
  let files := arguments.filter fun a => a = "-" || !("-".isPrefixOf a)
  let mut status := 0
  for file in if files = [] then ["-"] else files do
    let s ← get
    if file = "-" then set { s.write 1 s.input with input := [] }
    else
      match fileContents s file with
      | .ok contents => set (s.write 1 contents)
      | .error e =>
        toolComplaint "cat" (file ++ ": " ++ reason e)
        status := 1
  return status

/-- Writes its arguments, without a line end after `-n` and with escapes after `-e`. -/
def echo (arguments : List String) : Evaluation Nat := do
  let isOption := fun (a : String) =>
    match a.toList with
    | '-' :: c :: rest => (c :: rest).all "neE".toList.contains
    | _ => false
  let options := (arguments.takeWhile isOption).flatMap fun a => a.toList.drop 1
  let words := arguments.dropWhile isOption
  let text := ofText (String.intercalate " " words)
  let escapes := (options.filter (· ≠ 'n')).getLast? = some 'e'
  let (text, ends) := if escapes then unescape (text.length + 1) text else (text, false)
  put 1 (if ends ∨ 'n' ∈ options then text else text ++ ['\n'])
  return 0

/-- A duration in nanoseconds: a decimal number and a unit. -/
def nanoseconds? (text : String) : Option Nat :=
  let chars := text.toList
  let whole := chars.takeWhile Text.isDigit
  let rest := chars.drop whole.length
  let (fraction, rest) := match rest with
    | '.' :: rest => (rest.takeWhile Text.isDigit, rest.dropWhile Text.isDigit)
    | rest => ([], rest)
  let unit : Option Nat := match rest with
    | [] | ['s'] => some 1
    | ['m'] => some 60
    | ['h'] => some 3600
    | ['d'] => some 86400
    | _ => none
  if whole = [] ∧ fraction = [] then none
  else
    match unit, Text.decimalValue? whole,
      Text.decimalValue? ((fraction ++ List.replicate 9 '0').take 9) with
    | some unit, some seconds, some nanos => some (unit * (seconds * 1000000000 + nanos))
    | _, _, _ => none

/-- Waits. Where the time does not suffice for it, nothing comes after it. -/
def sleep (arguments : List String) : Evaluation Nat := do
  if arguments = [] then
    toolComplaint "sleep" "missing operand\nTry 'sleep --help' for more information."
    return 1
  let bad := arguments.filter fun a => (nanoseconds? a).isNone
  if bad ≠ [] then
    for argument in bad do
      toolComplaint "sleep" ("invalid time interval \u2018" ++ argument ++ "\u2019")
    put 2 "Try 'sleep --help' for more information.\n".toList
    return 1
  let total := (arguments.map fun a => (nanoseconds? a).getD 0).foldl (· + ·) 0
  let s ← get
  match s.remaining with
  | none => return 0
  | some left =>
    if left ≤ total then throw .unfinished
    set { s with remaining := some (left - total) }
    return 0

/-- The names in a directory in the order of their characters. -/
def sortedNames (s : State) (dir : Location) : List String :=
  (s.tree.children dir).mergeSort fun a b => a ≤ b

/-- Lists files, and what is in directories. -/
def ls (arguments : List String) : Evaluation Nat := do
  let isOption := fun (a : String) => "-".isPrefixOf a && a ≠ "-"
  let options := (arguments.filter isOption).flatMap fun a => a.toList.drop 1
  let named := arguments.filter fun a => !isOption a
  let paths := (if named = [] then ["."] else named).mergeSort fun a b => a ≤ b
  let s ← get
  let mut status := 0
  for path in paths do
    if !s.tree.hasPath s.workDir path then
      toolComplaint "ls" ("cannot access '" ++ path ++ "': " ++
        match s.tree.stat s.workDir path with
        | .error e => reason e
        | .ok _ => "")
      status := 2
  let isListed := fun path => s.tree.isDirectory s.workDir path && !options.contains 'd'
  let files := paths.filter fun path => s.tree.hasPath s.workDir path && !isListed path
  let dirs := paths.filter isListed
  for path in files do
    put 1 (ofText (path ++ "\n"))
  let mut first := files.isEmpty
  for path in dirs do
    if named.length > 1 then
      put 1 (ofText ((if first then "" else "\n") ++ path ++ ":\n"))
    first := false
    match s.tree.stat s.workDir path with
    | .ok (loc, _) =>
      let names := sortedNames s loc
      let names := if options.contains 'a' then "." :: ".." :: names
        else if options.contains 'A' then names
        else names.filter fun name => !(".".isPrefixOf name)
      for name in names do
        put 1 (ofText (name ++ "\n"))
    | .error _ => pure ()
  return status

/-- Removes files, and with `-r` directories. -/
def rm (arguments : List String) : Evaluation Nat := do
  let isOption := fun (a : String) => "-".isPrefixOf a && a ≠ "-"
  let options := (arguments.filter isOption).flatMap fun a => a.toList.drop 1
  let paths := arguments.filter fun a => !isOption a
  let force := options.contains 'f'
  let deep := options.contains 'r' || options.contains 'R'
  if paths = [] ∧ !force then
    toolComplaint "rm" "missing operand\nTry 'rm --help' for more information."
    return 1
  let mut status := 0
  for path in paths do
    let s ← get
    match s.tree.find s.workDir false path with
    | .ok (.entry loc .directory) =>
      if deep then set { s with tree := s.tree.eraseAll loc }
      else if options.contains 'd' ∧ s.tree.children loc = [] then
        set { s with tree := s.tree.erase loc }
      else
        toolComplaint "rm" ("cannot remove '" ++ path ++ "': Is a directory")
        status := 1
    | .ok (.entry loc _) => set { s with tree := s.tree.erase loc }
    | .ok (.vacant _) =>
      if !force then
        toolComplaint "rm" ("cannot remove '" ++ path ++ "': No such file or directory")
        status := 1
    | .error e =>
      if !force ∨ (e ≠ .notFound ∧ e ≠ .notADirectory) then
        toolComplaint "rm" ("cannot remove '" ++ path ++ "': " ++ reason e)
        status := 1
  return status

/-- The lines of some octets, each with its line feed. -/
def octetLines : List UInt8 → List (List UInt8)
  | [] => []
  | b :: rest =>
    if b = 0x0A then [b] :: octetLines rest
    else
      match octetLines rest with
      | [] => [[b]]
      | line :: others => (b :: line) :: others

/-- The parts of which `tail` keeps some, and how many, from the start with a plus. -/
private def tailOf (bytes : Bool) (count : String) (contents : List UInt8) : List UInt8 :=
  let chars := count.toList
  let fromStart := chars.head? = some '+'
  let number := (Text.decimalValue? (chars.dropWhile fun c => c = '+' ∨ c = '-')).getD 10
  let parts := if bytes then contents.map fun b => [b] else octetLines contents
  (if fromStart then parts.drop (number - 1) else parts.drop (parts.length - number)).flatten

/-- The count, whether it counts octets, and the files that the arguments of `tail` name. -/
private def tailArguments : List String → Bool × String × List String
  | [] => (false, "10", [])
  | "-n" :: count :: rest => let (_, _, files) := tailArguments rest; (false, count, files)
  | "-c" :: count :: rest => let (_, _, files) := tailArguments rest; (true, count, files)
  | argument :: rest =>
    let (bytes, count, files) := tailArguments rest
    match argument.toList with
    | '-' :: 'n' :: digits => (false, String.ofList digits, files)
    | '-' :: 'c' :: digits => (true, String.ofList digits, files)
    | '-' :: c :: digits =>
      if Text.isDigit c then (false, String.ofList (c :: digits), files)
      else (bytes, count, files)
    | _ => (bytes, count, argument :: files)

/-- Writes the ends of files. -/
def tail (arguments : List String) : Evaluation Nat := do
  let (bytes, count, files) := tailArguments arguments
  let mut status := 0
  let mut first := true
  for file in if files = [] then ["-"] else files do
    let s ← get
    let header := if files.length > 1 then
        (if first then "" else "\n") ++ "==> " ++ file ++ " <==\n"
      else ""
    if file = "-" then set { s.write 1 (tailOf bytes count s.input) with input := [] }
    else
      match fileContents s file with
      | .ok contents =>
        put 1 (ofText header)
        modify fun s => s.write 1 (tailOf bytes count contents)
        first := false
      | .error e =>
        if e = .isADirectory then
          toolComplaint "tail" ("error reading '" ++ file ++ "': " ++ reason e)
        else
          toolComplaint "tail" ("cannot open '" ++ file ++ "' for reading: " ++ reason e)
        status := 1
  return status

/-- What the tool of this name does, if there is one. -/
def tool? (name : String) : Option (List String → Evaluation Nat) :=
  match name with
  | "cat" => some cat
  | "echo" => some echo
  | "sleep" => some sleep
  | "ls" => some ls
  | "rm" => some rm
  | "tail" => some tail
  | "true" => some fun _ => return 0
  | "false" => some fun _ => return 1
  | _ => none

end StepRunner.Shell
