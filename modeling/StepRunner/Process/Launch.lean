import StepRunner.Process.Call

namespace StepRunner

/-- A command to be started: the name of the executable and the arguments after it. -/
structure Launch where
  executable : String
  arguments : List String
  environment : Environment
  workDir : Location
deriving DecidableEq, Repr

namespace Launch

/-- Where executables are looked for when the environment does not say. -/
def defaultSearchPath : String := "/bin:/usr/bin"

/-- The most interpreters that a script may lead through. -/
def maxInterpreters : Nat := 5

/-- The octets of a script's first line that count. -/
def maxHeader : Nat := 256

private def isGap (c : Char) : Bool := c = ' ' || c = '\t'

/-- The interpreter that the first line of a script names, and its one argument. A name that may
    go on after the octets that count is none. -/
def header? (contents : List UInt8) : Option (List Char × Option String) :=
  match contents with
  | 0x23 :: 0x21 :: rest =>
    let header := rest.take (maxHeader - 2)
    let line := Text.trimStart isGap (Text.decodeUtf8Lossy (header.takeWhile (· ≠ 0x0A)))
    let name := line.takeWhile (!isGap ·)
    let argument := Text.trim isGap (line.drop name.length)
    let isCut := header.length = maxHeader - 2 ∧ 0x0A ∉ header ∧ name = line
    if name = [] ∨ isCut then none
    else some (name, if argument = [] then none else some (String.ofList argument))
  | _ => none

/-- The contents of the file that a path leads to, if it may be executed. -/
def contents (t : FileTree) (here : Location) (path : String) : Except IoError (List UInt8) :=
  match t.stat here path with
  | .error e => .error e
  | .ok (_, .directory) | .ok (_, .link _) => .error .permissionDenied
  | .ok (_, .file data) => if data.executable then .ok data.contents else .error .permissionDenied

/-- The program that runs when the file at `path` is executed with `arguments`, of which the
    first is the name it is called by. A script is run by its interpreter; at most `files` files
    are read. -/
def resolve (t : FileTree) (here : Location) :
    (files : Nat) → (path : String) → (arguments : List String) →
    Except IoError (String × List String)
  | 0, path, _ => do
    let _ ← contents t here path
    throw .tooManyLinks
  | files + 1, path, arguments => do
    let found ← contents t here path
    match ProgramCall.nativeProgram? found with
    | some program => return (program, arguments)
    | none =>
      match header? found with
      | none => throw .cannotExecute
      | some (name, argument) =>
        let interpreter := String.ofList name
        resolve t here files interpreter
          (interpreter :: argument.toList ++ path :: arguments.drop 1)

/-- Whether the executable is given by its path, and not looked for by its name. -/
def isPath (launch : Launch) : Bool := '/' ∈ launch.executable.toList

/-- The paths under which the executable is looked for, in order. -/
def places (launch : Launch) : List String :=
  if launch.executable = "" then []
  else if launch.isPath then [launch.executable]
  else
    let path := (launch.environment.get? "PATH").getD defaultSearchPath
    (Text.pieces ':' path.toList).map fun dir =>
      if dir = [] then launch.executable
      else String.ofList dir ++ "/" ++ launch.executable

/-- What an executable turns out to be: a native program with its arguments, or a file that the
    machine may execute and does not know how to. -/
inductive Executable where
  | native (program : String) (arguments : List String)
  | unknown (path : String)
deriving DecidableEq, Repr

/-- Tries paths in order until one can be executed. A path that leads nowhere is passed over, and
    so is a forbidden one. If no other is found, a forbidden one is told of, or else the last. -/
def firstOf (resolveAt : String → Except IoError (String × List String)) (failure : IoError) :
    List String → Except IoError Executable
  | [] => .error failure
  | path :: rest =>
    match resolveAt path with
    | .ok (program, arguments) => .ok (.native program arguments)
    | .error e =>
      if e = .cannotExecute then .ok (.unknown path)
      else if e = .permissionDenied then firstOf resolveAt e rest
      else if e = .notFound ∨ e = .notADirectory then
        firstOf resolveAt (if failure = .permissionDenied then failure else e) rest
      else .error e

/-- The program that runs when the file at `path` is executed with the launch's arguments. -/
def resolveAt (launch : Launch) (t : FileTree) (path : String) :
    Except IoError (String × List String) :=
  resolve t launch.workDir (maxInterpreters + 1) path (launch.executable :: launch.arguments)

/-- What is found under the name of the executable. -/
def find (launch : Launch) (t : FileTree) : Except IoError Executable :=
  if !launch.isPath && FileTree.maxName < Text.utf8Length launch.executable.toList then
    .error .nameTooLong
  else firstOf (launch.resolveAt t) .notFound launch.places

/-- The shell that runs what the machine does not know how to execute. -/
def shellPath : String := "/bin/sh"

/-- The program that a launch starts. A file that the machine does not know how to execute is run
    by the shell if `byShell` says so. -/
def programCall (launch : Launch) (t : FileTree) (byShell : Bool) (timeLimit : Option Nat) :
    Except IoError ProgramCall := do
  let call := fun program arguments =>
    (⟨program, arguments, launch.environment, launch.workDir, timeLimit⟩ : ProgramCall)
  match ← launch.find t with
  | .native program arguments => return call program arguments
  | .unknown path =>
    if byShell then
      let (program, arguments) ← resolve t launch.workDir (maxInterpreters + 1) shellPath
        (shellPath :: path :: launch.arguments)
      return call program arguments
    else throw .cannotExecute

end Launch

end StepRunner
