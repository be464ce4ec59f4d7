import StepRunner.CommandLine.Options
import StepRunner.Log.Line
import StepRunner.Step.Bench
import StepRunner.Step.Compile
import StepRunner.Step.DownloadSkps
import StepRunner.Storage.Client

namespace StepRunner.CommandLine

/-- The name and version of the program. -/
def versionText : String := "slave-step 0.3.1\n"

/-- What the program is for. -/
def helpText : String := "Run a build-slave step\n"

/-- Why no step was run. -/
structure SetupError where
  summary : String
  cause : StepError
deriving DecidableEq, Repr

/-- The text of the error; the lines of its cause are indented. -/
def SetupError.text (e : SetupError) : String :=
  let lines := (Text.pieces '\n' e.cause.message.toList).map fun line =>
    "    " ++ String.ofList line
  "Error: " ++ e.summary ++ "\n\nCaused by:\n" ++ String.intercalate "\n" lines ++ "\n"

/-- How the program ended. -/
inductive Ending where
  | halted (halt : Halt)
  /-- No step was run. -/
  | failed (settings : Settings) (error : SetupError)
  | finished (settings : Settings) (outcome : StepOutcome)

/-- The step that was asked for. -/
def buildStep (programs : Programs) (env : Environment) (ctx : StepContext) :
    StepName → Except StepError (BuildStep Network)
  | .compile => do return (← CompileConfig.ofContext ctx).step programs
  | .benchPictures => do
    return (← BenchConfig.ofContext ctx .host defaultTimeoutSecs).step programs
  | .androidBenchPictures => do
    return (← BenchConfig.ofContextOnDevice ctx).stepOnDevice programs
  | .downloadSkps =>
    .ok ((SyncConfig.ofContext ctx).step ((GsConfig.ofEnvironment env).storage programs))

/-- Runs a command line. The run of the step has the number `runId`. -/
def run {ε : Type} (programs : Programs) (runId : String) (arguments : List String) :
    Action Network ε Ending := do
  let env := (← Action.machine).environment
  match read env arguments with
  | .error halt => return .halted halt
  | .ok (name, settings) =>
    match settings.context with
    | .error cause => return .failed settings ⟨"Invalid --args", cause⟩
    | .ok ctx =>
      match buildStep programs env ctx name with
      | .error cause => return .failed settings ⟨"Failed to construct step", cause⟩
      | .ok step =>
        let outcome ← step.runToOutcome runId
        Action.note .info .program "Step finished"
          [("step", .text outcome.stepName), ("run_id", .text outcome.runId),
            ("duration_ms", .number outcome.durationMs),
            ("exit_code", .number outcome.exitCode)]
        return .finished settings outcome

namespace Ending

/-- The exit code that tells how the program ended. -/
def exitCode : Ending → Nat
  | .halted .rejected => 2
  | .halted .help | .halted .version => 0
  | .failed _ _ => 1
  | .finished _ outcome => outcome.exitCode

/-- What the program writes to its output. -/
def stdout : Ending → String
  | .halted .version => versionText
  | .halted .help => helpText
  | _ => ""

/-- What the program writes about its own failure. -/
def complaint : Ending → String
  | .failed _ error => error.text
  | _ => ""

/-- The settings, if the command line was understood. -/
def settings? : Ending → Option Settings
  | .halted _ => none
  | .failed settings _ | .finished settings _ => some settings

/-- The level down to which events are shown if the environment does not say. -/
def defaultLevel (ending : Ending) : Log.Level :=
  if ending.settings?.any (·.verbose.value) then .debug else .info

/-- Which events are shown, and complaints about what the environment says of that. -/
def filter (ending : Ending) (env : Environment) : Log.Filter × List String :=
  Log.Filter.ofText ending.defaultLevel ((env.get? "RUST_LOG").getD "")

/-- The lines that the program writes besides its output: complaints, events and its own
    failure. -/
def lines (ending : Ending) (env : Environment) (events : List Log.Event) : List String :=
  match ending.settings? with
  | none => []
  | some settings =>
    let (filter, complaints) := ending.filter env
    complaints ++ Log.lines settings.json.value filter events

end Ending

end StepRunner.CommandLine
