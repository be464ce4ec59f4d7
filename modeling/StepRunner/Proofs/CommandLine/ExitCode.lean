import StepRunner.CommandLine.Program
import StepRunner.Proofs.CommandLine.Lists
import StepRunner.Proofs.Process.Command
import StepRunner.Proofs.Step.Bench
import StepRunner.Proofs.Step.Lifecycle
import StepRunner.Proofs.Storage.Memory

namespace StepRunner

variable {σ ε : Type} {programs : Programs} {ctx : StepContext} {w : World σ}

namespace CommandLine

variable {env : Environment} {name : StepName} {settings : Settings} {arguments : List String}
  {runId : String}

section Run

variable {w : World Network}

end Run

end CommandLine

end StepRunner
