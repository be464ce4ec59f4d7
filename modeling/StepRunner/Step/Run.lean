import StepRunner.Step.Error
import StepRunner.Text.Quoted

namespace StepRunner

/-- How far a run of a step has come. -/
inductive StepState where
  | constructed
  | running
  | succeeded
  | failed (error : String)
deriving DecidableEq, Repr

namespace StepState

/-- Whether the run is over. -/
def isTerminal : StepState → Bool
  | .succeeded | .failed _ => true
  | .constructed | .running => false

/-- The state as messages name it. -/
def label : StepState → String
  | .constructed => "Constructed"
  | .running => "Running"
  | .succeeded => "Succeeded"
  | .failed error => "Failed(" ++ Text.quoted error ++ ")"

/-- Begins a run that has not begun. -/
def start : StepState → Except StepError StepState
  | .constructed => .ok .running
  | state => .error (.invalidTransition ("cannot start a run in state " ++ state.label))

/-- Ends a run that is going on, with the outcome of its work. -/
def finish (outcome : Except StepError Unit) : StepState → Except StepError StepState
  | .running =>
    match outcome with
    | .ok () => .ok .succeeded
    | .error e => .ok (.failed e.message)
  | state => .error (.invalidTransition ("cannot finish a run in state " ++ state.label))

end StepState

/-- What is asked of a run. -/
inductive StepCall where
  | start
  | finish (outcome : Except StepError Unit)

namespace StepCall

/-- The state that a call leads to; a call that is refused has its error and leads nowhere. -/
def apply (call : StepCall) (state : StepState) : Except StepError StepState :=
  match call with
  | .start => state.start
  | .finish outcome => state.finish outcome

/-- The state after a call, which a refused one leaves as it was. -/
def next (state : StepState) (call : StepCall) : StepState :=
  match call.apply state with
  | .ok after => after
  | .error _ => state

end StepCall

end StepRunner
