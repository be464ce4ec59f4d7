import StepRunner.Process.Command
import StepRunner.Step.Context
import StepRunner.Step.Harness

namespace StepRunner

/-- What the compile step is to build. -/
structure CompileConfig where
  target : String
  device : String
  buildType : String
  extraFlags : List String
  parentDir : String
  timeoutSecs : Nat
deriving DecidableEq, Repr

namespace CompileConfig

/-- The variable that tells where the SDK lies. -/
def sdkRootVariable : String := "ANDROID_SDK_ROOT"

/-- Where the SDK lies if nothing tells. -/
def defaultSdkRoot : String := "/home/chrome-bot/android-sdk-linux"

/-- What a context asks for. A target and a device have to be given. -/
def ofContext (ctx : StepContext) : Except StepError CompileConfig := do
  let target ← ctx.args.require "target"
  let device ← ctx.args.require "device"
  return ⟨target, device, ctx.configuration, ctx.makeFlags, ctx.parentDir,
    ctx.timeoutOr defaultTimeoutSecs⟩

/-- Where the SDK lies. -/
def sdkRoot (existing : Option String) : String := existing.getD defaultSdkRoot

/-- The command line that builds a target. -/
def commandLine (parentDir target device buildType : String) (extraFlags : List String) :
    List String :=
  Path.join (Path.join (Path.join parentDir "android") "bin") "android_make" ::
    target :: "-d" :: device :: ("BUILDTYPE=" ++ buildType) :: extraFlags

/-- The command that builds the target, with the SDK where the environment says. -/
def command (config : CompileConfig) (environmentRoot : Option String) : CommandSpec :=
  (CommandSpec.withEnv
    ⟨commandLine config.parentDir config.target config.device config.buildType config.extraFlags,
      [], none, 0⟩
    sdkRootVariable (sdkRoot environmentRoot)).withTimeout config.timeoutSecs

variable {σ : Type}

/-- Compiles the target. -/
def compile (config : CompileConfig) (programs : Programs) : Action σ StepError Unit := do
  let environmentRoot := (← Action.machine).environment.get? sdkRootVariable
  Action.note .info .compile "Compiling"
    [("build_target", .text config.target), ("device", .text config.device)]
  let _ ← (config.command environmentRoot).run programs

/-- The compile step. -/
def step (config : CompileConfig) (programs : Programs) : BuildStep σ :=
  ⟨"android_compile", config.timeoutSecs, config.compile programs⟩

end CompileConfig

end StepRunner
