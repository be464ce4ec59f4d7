import StepRunner.Step.Arguments
import StepRunner.Step.PlaybackDirs
import StepRunner.Text.Ascii

namespace StepRunner

/-- The seconds that a step's commands may take unless it says otherwise. -/
def defaultTimeoutSecs : Nat := 9600

/-- What every step is told about its surroundings. -/
structure StepContext where
  configuration : String := "Debug"
  makeFlags : List String := []
  useSkpPlaybackFramework : Bool := false
  builderName : String := "unknown-builder"
  perfOutputBasedir : String := "perfdata"
  gmImageSubdir : String := "base"
  parentDir : String := ".."
  args : StepArguments := StepArguments.empty
  timeoutSecs : Option Nat := none
deriving DecidableEq, Repr

namespace StepContext

/-- The playback directories on the machine. -/
def localDirs (ctx : StepContext) : LocalPlaybackDirs :=
  .ofBuilder ctx.perfOutputBasedir ctx.builderName ctx.gmImageSubdir

/-- The playback directories in storage. -/
def storageDirs (ctx : StepContext) : StoragePlaybackDirs := ⟨ctx.gmImageSubdir⟩

/-- The time limit in seconds, `default` if none is given. -/
def timeoutOr (ctx : StepContext) (default : Nat) : Nat := ctx.timeoutSecs.getD default

/-- Whether this is an optimised build. -/
def isRelease (ctx : StepContext) : Bool := Text.equalIgnoringCase ctx.configuration "release"

end StepContext

end StepRunner
