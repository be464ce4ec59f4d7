import StepRunner.CommandLine.Program
import StepRunner.Shell.System

open StepRunner

/-- The variables that the program looks at. -/
def observedVariables : List String :=
  ["CONFIGURATION", "BUILDER_NAME", "PERF_OUTPUT_BASEDIR", "USE_SKP_PLAYBACK_FRAMEWORK",
    "ANDROID_SDK_ROOT", "GSUTIL_PATH", "GS_API_BASE", "GS_DOWNLOAD_BASE", "GS_USE_HTTP",
    "RUST_LOG", "PATH"]

/-- Runs the program on a machine in memory, whose working directory is empty and which reaches no
    server. -/
def main (arguments : List String) : IO UInt32 := do
  let environment ← observedVariables.filterMapM fun name => do
    return (← IO.getEnv name).map (name, ·)
  let now : Instant := ⟨0⟩
  let workDir : Location := ["work", "tmp"]
  let machine : Machine := {
    tree := (Shell.systemTree now).put workDir .directory
    workDir, environment, now
    temporaryNames := (List.range 100).map fun n => ".tmp" ++ toString n
    patience := id
    walkOrder := id
    span := none
    log := [] }
  let runId := "00000000-0000-4000-8000-000000000000"
  let action : Action Network Empty CommandLine.Ending :=
    CommandLine.run Shell.programs runId arguments
  let (result, world) := action.run ⟨machine, ⟨false, [], []⟩⟩
  match result with
  | .error e => nomatch e
  | .ok ending =>
    IO.print ending.stdout
    for line in ending.lines environment world.machine.log do
      IO.eprintln line
    IO.eprint ending.complaint
    return ending.exitCode.toUInt32
