import StepRunner.Step.Run
import StepRunner.World

namespace StepRunner

/-- One unit of build work. -/
structure BuildStep (σ : Type) where
  name : String
  timeoutSecs : Nat
  run : Action σ StepError Unit

/-- How the run of a step ended. -/
structure StepOutcome where
  stepName : String
  runId : String
  state : StepState
  durationMs : Nat
deriving DecidableEq, Repr

namespace StepOutcome

def succeeded (outcome : StepOutcome) : Bool := outcome.state = .succeeded

/-- The exit code that tells the outcome. -/
def exitCode (outcome : StepOutcome) : Nat := if outcome.succeeded then 0 else 1

end StepOutcome

namespace BuildStep

variable {σ ε : Type}

/-- The span that a step's events lie in. -/
def span (step : BuildStep σ) (runId : String) : Log.Span :=
  ⟨"step", .info, .lifecycle,
    [("step", .text (Text.quoted step.name)), ("run_id", .text runId)]⟩

/-- Runs a step to its end. Its errors are logged and kept in the outcome. -/
def runToOutcome (step : BuildStep σ) (runId : String) : Action σ ε StepOutcome := do
  let started := StepCall.next .constructed .start
  let state ← Action.inSpan (step.span runId) do
    Action.note .info .lifecycle "Running step" [("timeout_secs", .number step.timeoutSecs)]
    let result ← step.run.outcome
    match result with
    | .ok () => Action.note .info .lifecycle "Step succeeded"
    | .error e => Action.note .error .lifecycle "Step failed" [("error", .text e.message)]
    return StepCall.next started (.finish result)
  return ⟨step.name, runId, state, 0⟩

end BuildStep

end StepRunner
