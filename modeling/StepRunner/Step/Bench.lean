import StepRunner.Process.Command
import StepRunner.Step.Context
import StepRunner.Step.Harness
import StepRunner.Text.Blank

namespace StepRunner

/-- Where the benchmark runs. -/
inductive DeviceRunner where
  | host
  | android (device : String)
deriving DecidableEq, Repr

namespace DeviceRunner

/-- The command line that runs a binary. -/
def commandLine (runner : DeviceRunner) (parentDir buildType binary : String)
    (args : List String) : List String :=
  match runner with
  | .host => Path.join (Path.join (Path.join parentDir "out") buildType) binary :: args
  | .android device =>
    Path.join (Path.join (Path.join parentDir "android") "bin") "android_run_skia" ::
      "-d" :: device ::
      (if Text.equalIgnoringCase buildType "release" then "--release" else "--debug") ::
      binary :: args

/-- The runner as messages name it. -/
def label : DeviceRunner → String
  | .host => "Host"
  | .android device => "Android \x7b device: " ++ Text.quoted device ++ " \x7d"

end DeviceRunner

/-- What the benchmark is to do. -/
structure BenchConfig where
  runner : DeviceRunner
  buildType : String
  parentDir : String
  /-- Where the pictures lie. Without that directory nothing is run. -/
  localSkpDir : String
  /-- Where the executable sees the pictures, if that is somewhere else. -/
  targetSkpDir : Option String
  repeats : Nat
  timers : String
  extraArgs : List String
  timeoutSecs : Nat
deriving DecidableEq, Repr

namespace BenchConfig

/-- The executable. -/
def executable : String := "bench_pictures"

def defaultRepeats : Nat := 20

def defaultTimers : String := "wc"

/-- The time limit on a device. -/
def androidTimeoutSecs : Nat := 134400

/-- How often the benchmark is repeated: at least once. -/
def repeatsOf (args : StepArguments) : Except StepError Nat := do
  let repeats ← match args.get? "bench_repeats" with
    | none => pure defaultRepeats
    | some raw =>
      match Text.unsigned? Text.maxWord32 raw.toList with
      | some n => pure n
      | none => throw (.invalidConfig ("bench_repeats `" ++ raw ++ "` is not a number"))
  if repeats = 0 then throw (.invalidConfig "bench_repeats must be at least 1")
  return repeats

/-- What a context asks for. -/
def ofContext (ctx : StepContext) (runner : DeviceRunner) (defaultTimeoutSecs : Nat) :
    Except StepError BenchConfig := do
  let repeats ← repeatsOf ctx.args
  return {
    runner
    buildType := ctx.configuration
    parentDir := ctx.parentDir
    localSkpDir := ctx.localDirs.skp
    targetSkpDir := ctx.args.get? "device_skp_dir"
    repeats
    timers := (ctx.args.get? "bench_timers").getD defaultTimers
    extraArgs := match ctx.args.get? "bench_args" with
      | some args => (Text.words args.toList).map String.ofList
      | none => []
    timeoutSecs := ctx.timeoutOr defaultTimeoutSecs }

/-- What a context asks for on a device, which has to be given. -/
def ofContextOnDevice (ctx : StepContext) : Except StepError BenchConfig := do
  let device ← ctx.args.require "device"
  ofContext ctx (.android device) androidTimeoutSecs

/-- The arguments of the executable. -/
def arguments (config : BenchConfig) : List String :=
  config.targetSkpDir.getD config.localSkpDir :: "--repeat" :: toString config.repeats ::
    "--timers" :: config.timers :: config.extraArgs

/-- The command that runs the benchmark. -/
def command (config : BenchConfig) : CommandSpec where
  argv := config.runner.commandLine config.parentDir config.buildType executable config.arguments
  timeoutSecs := config.timeoutSecs

variable {σ : Type}

/-- Runs the benchmark if there are pictures. -/
def bench (config : BenchConfig) (programs : Programs) : Action σ StepError Unit := do
  let m ← Action.machine
  if m.tree.isDirectory m.workDir config.localSkpDir then
    Action.note .info .bench "Benchmarking pictures"
      [("runner", .text config.runner.label), ("repeats", .number config.repeats)]
    let _ ← config.command.run programs
  else
    Action.note .warn .bench "No SKP directory; skipping bench_pictures"
      [("skp_dir", .text config.localSkpDir)]

/-- The benchmark on this machine. -/
def step (config : BenchConfig) (programs : Programs) : BuildStep σ :=
  ⟨"bench_pictures", config.timeoutSecs, config.bench programs⟩

/-- The benchmark on a device. -/
def stepOnDevice (config : BenchConfig) (programs : Programs) : BuildStep σ :=
  ⟨"android_bench_pictures", config.timeoutSecs, config.bench programs⟩

end BenchConfig

end StepRunner
