import StepRunner.Process.Launch
import StepRunner.Step.Error

namespace StepRunner

/-- A command of a step. Its variables are set for it alone; a time limit of zero is none. -/
structure CommandSpec where
  argv : List String
  env : List (String × String) := []
  cwd : Option String := none
  timeoutSecs : Nat := 0
deriving DecidableEq, Repr

/-- What a successful command gave. -/
structure CommandOutput where
  exitCode : Nat
  stdout : String
  stderr : String
deriving DecidableEq, Repr

namespace CommandSpec

/-- The command with one more variable set. -/
def withEnv (spec : CommandSpec) (key value : String) : CommandSpec :=
  { spec with env := spec.env ++ [(key, value)] }

/-- The command in another directory. -/
def withCwd (spec : CommandSpec) (cwd : String) : CommandSpec := { spec with cwd := some cwd }

/-- The command with a time limit. -/
def withTimeout (spec : CommandSpec) (timeoutSecs : Nat) : CommandSpec :=
  { spec with timeoutSecs }

/-- The command on one line. -/
def display (spec : CommandSpec) : String := String.intercalate " " spec.argv

/-- Whether a part of the command has a NUL in it, which no process can be given. Of several values
    of a variable only the last one is handed over. -/
def hasNul (spec : CommandSpec) : Bool :=
  (spec.argv ++ spec.cwd.toList ++ spec.env.flatMap fun (key, _) =>
    key :: (Environment.get? spec.env key).toList).any ('\x00' ∈ ·.toList)

/-- The directory that the command runs in. -/
def directory (spec : CommandSpec) (m : Machine) : Except IoError Location :=
  match spec.cwd with
  | none => .ok m.workDir
  | some cwd =>
    match m.tree.stat m.workDir cwd with
    | .ok (loc, .directory) => .ok loc
    | .ok _ => .error .notADirectory
    | .error e => .error e

/-- What the command is to start in a directory of a machine. -/
def launch (spec : CommandSpec) (m : Machine) (workDir : Location) : Launch :=
  ⟨spec.argv.headD "", spec.argv.tail, m.environment.override spec.env, workDir⟩

/-- The program that the command starts on a machine. A file that the machine does not know how to
    execute is run by the shell only if it was looked for in a search path of the command's own. -/
def start (spec : CommandSpec) (m : Machine) : Except IoError ProgramCall := do
  if spec.hasNul then throw .nulInCommand
  let launch := spec.launch m (← spec.directory m)
  launch.programCall m.tree (spec.env.any (·.1 = "PATH") && !launch.isPath)
    (if spec.timeoutSecs = 0 then none else some (m.patience spec.timeoutSecs))

variable {σ : Type}

/-- Notes every line of an output. -/
def noteLines (level : Log.Level) (output : String) : Action σ StepError Unit :=
  (Text.lines output.toList).forM fun line => Action.note level .command (String.ofList line)

/-- The text of an output, with U+FFFD for what is no UTF-8. -/
def outputText (octets : List UInt8) : String := String.ofList (Text.decodeUtf8Lossy octets)

/-- Runs the command to its end. Only a command that succeeds gives a result. -/
def run (programs : Programs) (spec : CommandSpec) : Action σ StepError CommandOutput := do
  let executable :: _ := spec.argv | throw (.invalidConfig "empty command")
  Action.note .info .command "Running command" [("command", .text spec.display)]
  let m ← Action.machine
  match spec.start m with
  | .error e => throw (if e = .notFound then .commandNotFound executable else .io e)
  | .ok call =>
    let execution := programs m.now call m.tree
    Action.modifyMachine fun m => { m with tree := execution.tree }
    let stdout := outputText execution.stdout
    let stderr := outputText execution.stderr
    match execution.ending with
    | .unfinished => throw (.commandTimedOut spec.display spec.timeoutSecs)
    | .signalled =>
      noteLines .info stdout
      noteLines .warn stderr
      throw (.commandFailed spec.display (-1) stderr)
    | .exited status =>
      noteLines .info stdout
      noteLines .warn stderr
      if status ≠ 0 then throw (.commandFailed spec.display status stderr)
      Action.note .info .command "Command finished" [("duration_ms", .number 0)]
      return ⟨status, stdout, stderr⟩

end CommandSpec

end StepRunner
