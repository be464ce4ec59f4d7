import StepRunner.FileTree.Disk
import StepRunner.Log.Event

namespace StepRunner

/-- Variables of an environment. Of several values of a name the last counts. -/
abbrev Environment := List (String × String)

namespace Environment

/-- The value of a variable. -/
def get? (env : Environment) (name : String) : Option String := env.reverse.lookup name

/-- The environment with some variables set. -/
def override (env changes : Environment) : Environment := env ++ changes

end Environment

/-- The machine that a step runs on, as far as steps can see and change it.

    `temporaryNames` are the names that are tried for a temporary file, `patience` says how many
    seconds a time limit lasts, `walkOrder` is the order in which a walk visits what lies below a
    directory, and `span` is the work that is going on. -/
structure Machine where
  tree : FileTree
  workDir : Location
  environment : Environment
  now : Instant
  temporaryNames : List String
  patience : Nat → Nat
  walkOrder : List Location → List Location
  span : Option Log.Span
  log : List Log.Event

/-- The machine together with what lies outside it. -/
structure World (σ : Type) where
  machine : Machine
  remote : σ

/-- Something that is done in the world and may fail. What it did before it failed stays done. -/
abbrev Action (σ ε α : Type) := ExceptT ε (StateM (World σ)) α

namespace Action

variable {σ τ ε ε' α : Type}

/-- The machine as it is now. -/
def machine : Action σ ε Machine := return (← get).machine

/-- Changes the machine. -/
def modifyMachine (f : Machine → Machine) : Action σ ε Unit :=
  modify fun w => { w with machine := f w.machine }

/-- The action with its errors seen as other ones. -/
def mapError (f : ε → ε') (action : Action σ ε α) : Action σ ε' α := fun w =>
  let (result, w) := action w
  (result.mapError f, w)

/-- An action that cannot fail any more: its result tells whether it did. -/
def outcome (action : Action σ ε α) : Action σ ε' (Except ε α) := fun w =>
  let (result, w) := action w
  (.ok result, w)

/-- An action on a part of what lies outside the machine. -/
def focus (view : τ → σ) (update : σ → τ → τ) (action : Action σ ε α) : Action τ ε α := fun w =>
  let (result, inner) := action ⟨w.machine, view w.remote⟩
  (result, ⟨inner.machine, update inner.remote w.remote⟩)

/-- An operation on the file tree, seen from the working directory. -/
def onDisk (toError : IoError → ε) (op : Location → Disk α) : Action σ ε α := fun w =>
  let (result, tree) := (op w.machine.workDir).run w.machine.tree
  (result.mapError toError, { w with machine := { w.machine with tree } })

/-- Writes an event to the log. -/
def note (level : Log.Level) (channel : Log.Channel) (message : String)
    (fields : List (String × Log.Value) := []) : Action σ ε Unit :=
  modifyMachine fun m =>
    { m with log := m.log ++ [⟨level, channel, message, fields, m.span⟩] }

/-- The action inside a span, which ends with it. -/
def inSpan (span : Log.Span) (action : Action σ ε α) : Action σ ε α := fun w =>
  let outer := w.machine.span
  let (result, w) := action { w with machine := { w.machine with span := some span } }
  (result, { w with machine := { w.machine with span := outer } })

end Action

end StepRunner
