import Mathlib.Data.List.Induction
import StepRunner.Proofs.Action
import StepRunner.Step.Harness

namespace StepRunner

namespace StepState

/-- The state in which an outcome leaves a run. -/
def ended : Except StepError Unit → StepState
  | .ok () => .succeeded
  | .error e => .failed e.message

theorem isTerminal_ended (outcome : Except StepError Unit) : (ended outcome).isTerminal = true := by
  rcases outcome with e | ⟨⟩ <;> rfl

theorem finish_running (outcome : Except StepError Unit) :
    finish outcome .running = .ok (ended outcome) := by
  rcases outcome with e | ⟨⟩ <;> rfl

end StepState

namespace StepCall

open StepState

variable {calls : List StepCall} {call : StepCall} {state : StepState}
  {outcome : Except StepError Unit}

/-- The state of a new run after some calls. -/
def stateAfter (calls : List StepCall) : StepState := calls.foldl next .constructed

/-- Whether a `finish` follows the first `start` of some calls, and the first one that does has this
    outcome. -/
def Ends (calls : List StepCall) (outcome : Except StepError Unit) : Prop :=
  ∃ before between after, calls = before ++ start :: (between ++ finish outcome :: after) ∧
    start ∉ before ∧ ∀ call ∈ between, call = start

/-- Whether a call after some others is one of the two that count: the first `start`, and the first
    `finish` after it. -/
def Counts (calls : List StepCall) : StepCall → Prop
  | start => start ∉ calls
  | finish _ => start ∈ calls ∧ ∀ outcome, ¬Ends calls outcome

/-- `Brings calls state` says how far some calls bring a new run, by where those that count stand
    among them. -/
inductive Brings (calls : List StepCall) : StepState → Prop
  | idle (noStart : start ∉ calls) : Brings calls .constructed
  | going (before between : List StepCall) (eq : calls = before ++ start :: between)
    (noStart : start ∉ before) (noFinish : ∀ call ∈ between, call = start) :
    Brings calls .running
  | finished (outcome : Except StepError Unit) (isEnd : Ends calls outcome) :
    Brings calls (ended outcome)

theorem Ends.append (h : Ends calls outcome) (later : List StepCall) :
    Ends (calls ++ later) outcome := by
  obtain ⟨before, between, after, rfl, hbefore, hbetween⟩ := h
  exact ⟨before, between, after ++ later, by simp, hbefore, hbetween⟩

theorem next_of_isTerminal (h : state.isTerminal = true) (call : StepCall) :
    next state call = state := by
  cases state <;> cases h <;> cases call <;> rfl

/-- One more call brings a run to the next state. -/
theorem Brings.concat (h : Brings calls state) (call : StepCall) :
    Brings (calls ++ [call]) (next state call) := by
  cases h with
  | idle noStart =>
    cases call with
    | start => exact .going calls [] rfl noStart (by simp)
    | finish outcome => exact .idle (by simpa using noStart)
  | going before between eq noStart noFinish =>
    subst eq
    cases call with
    | start =>
      exact .going before (between ++ [start]) (by simp) noStart
        (by simpa [or_imp, forall_and] using noFinish)
    | finish outcome =>
      have hend : next .running (finish outcome) = ended outcome := by
        rw [next, apply, finish_running]
      rw [hend]
      exact .finished outcome ⟨before, between, [], by simp, noStart, noFinish⟩
  | finished outcome isEnd =>
    rw [next_of_isTerminal (isTerminal_ended outcome)]
    exact .finished outcome (isEnd.append [call])

theorem stateAfter_append (calls later : List StepCall) :
    stateAfter (calls ++ later) = later.foldl next (stateAfter calls) :=
  List.foldl_append

/-- Where the calls that count stand tells how far a run has come. -/
theorem brings_stateAfter (calls : List StepCall) : Brings calls (stateAfter calls) := by
  induction calls using List.reverseRecOn with
  | nil => exact .idle List.not_mem_nil
  | append_singleton calls call ih =>
    rw [stateAfter_append]
    exact ih.concat call

/-- Calls that are all refused leave a state as it is. -/
theorem foldl_next_eq_self (h : ∀ call ∈ calls, next state call = state) :
    calls.foldl next state = state := by
  induction calls with
  | nil => rfl
  | cons call calls ih =>
    obtain ⟨hcall, hcalls⟩ := List.forall_mem_cons.1 h
    rw [List.foldl_cons, hcall, ih hcalls]

theorem stateAfter_of_not_mem (h : start ∉ calls) : stateAfter calls = .constructed := by
  apply foldl_next_eq_self
  intro call hcall
  cases call with
  | start => exact absurd hcall h
  | finish outcome => rfl

/-- A run that is over stays as it is. -/
theorem stateAfter_append_of_isTerminal (h : (stateAfter calls).isTerminal = true)
    (later : List StepCall) : stateAfter (calls ++ later) = stateAfter calls := by
  rw [stateAfter_append]
  exact foldl_next_eq_self fun call _ => next_of_isTerminal h call

theorem Ends.stateAfter_eq (h : Ends calls outcome) : stateAfter calls = ended outcome := by
  obtain ⟨before, between, after, rfl, hbefore, hbetween⟩ := h
  have hgoing : between.foldl next .running = .running :=
    foldl_next_eq_self fun call hcall => hbetween call hcall ▸ rfl
  rw [stateAfter_append, stateAfter_of_not_mem hbefore, List.foldl_cons, List.foldl_append]
  change (finish outcome :: after).foldl next (between.foldl next .running) = _
  rw [hgoing, List.foldl_cons, next, apply, finish_running]
  exact foldl_next_eq_self fun call _ => next_of_isTerminal (isTerminal_ended outcome) call

theorem stateAfter_eq_constructed_iff : stateAfter calls = .constructed ↔ start ∉ calls := by
  refine ⟨fun h => ?_, stateAfter_of_not_mem⟩
  have hbrings := brings_stateAfter calls
  rw [h] at hbrings
  generalize hstate : StepState.constructed = state at hbrings
  cases hbrings with
  | idle noStart => exact noStart
  | going => cases hstate
  | finished outcome isEnd => rcases outcome with e | ⟨⟩ <;> cases hstate

theorem stateAfter_eq_running_iff :
    stateAfter calls = .running ↔ start ∈ calls ∧ ∀ outcome, ¬Ends calls outcome := by
  constructor
  · intro h
    refine ⟨?_, fun outcome hends => ?_⟩
    · by_contra hnot
      rw [stateAfter_of_not_mem hnot] at h
      cases h
    · rw [hends.stateAfter_eq] at h
      rcases outcome with e | ⟨⟩ <;> cases h
  · rintro ⟨hstart, hends⟩
    have hbrings := brings_stateAfter calls
    generalize stateAfter calls = state at hbrings
    cases hbrings with
    | idle noStart => exact absurd hstart noStart
    | going => rfl
    | finished outcome isEnd => exact absurd isEnd (hends outcome)

/-- A run is over if and only if the calls hold its end. -/
theorem isTerminal_stateAfter_iff :
    (stateAfter calls).isTerminal = true ↔ ∃ outcome, Ends calls outcome := by
  constructor
  · intro h
    have hbrings := brings_stateAfter calls
    generalize stateAfter calls = state at h hbrings
    cases hbrings with
    | idle => cases h
    | going => cases h
    | finished outcome isEnd => exact ⟨outcome, isEnd⟩
  · rintro ⟨outcome, hends⟩
    rw [hends.stateAfter_eq, isTerminal_ended]

/-- A call that counts leads to the next state. -/
theorem Counts.apply_eq (h : Counts calls call) :
    call.apply (stateAfter calls) = .ok (stateAfter (calls ++ [call])) := by
  rw [stateAfter_append]
  cases call with
  | start =>
    rw [stateAfter_of_not_mem h]
    rfl
  | finish outcome =>
    rw [stateAfter_eq_running_iff.2 h, List.foldl_cons, next, apply, finish_running]
    rfl

/-- A call that does not count is refused and leaves the state as it is. -/
theorem apply_of_not_counts (h : ¬Counts calls call) :
    (∃ reason, call.apply (stateAfter calls) = .error (.invalidTransition reason)) ∧
      stateAfter (calls ++ [call]) = stateAfter calls := by
  have hrefused : ∃ reason, call.apply (stateAfter calls) = .error (.invalidTransition reason) := by
    cases call with
    | start =>
      have hstate : stateAfter calls ≠ .constructed := fun hstate =>
        h (stateAfter_eq_constructed_iff.1 hstate)
      rw [apply, StepState.start.eq_def]
      split
      · next heq => exact absurd heq hstate
      · exact ⟨_, rfl⟩
    | finish outcome =>
      have hstate : stateAfter calls ≠ .running := fun hstate =>
        h (stateAfter_eq_running_iff.1 hstate)
      rw [apply, StepState.finish.eq_def]
      split
      · next heq => exact absurd heq hstate
      · exact ⟨_, rfl⟩
  refine ⟨hrefused, ?_⟩
  obtain ⟨reason, hreason⟩ := hrefused
  rw [stateAfter_append, List.foldl_cons, next, hreason]
  rfl

end StepCall

namespace BuildStep

variable {σ ε : Type}

/-- The world in which the work of a step begins. -/
def begun (step : BuildStep σ) (runId : String) (w : World σ) : World σ :=
  { w with machine := { w.machine with
    span := some (step.span runId)
    log := w.machine.log ++ [⟨.info, .lifecycle, "Running step",
      [("timeout_secs", .number step.timeoutSecs)], some (step.span runId)⟩] } }

/-- A run is started once, and finished once with what becomes of its work. -/
theorem run_runToOutcome_eq (step : BuildStep σ) (runId : String) (w : World σ) :
    ∃ w', (step.runToOutcome runId : Action σ ε StepOutcome).run w =
      (.ok ⟨step.name, runId,
        StepCall.stateAfter [.start, .finish (step.run.run (step.begun runId w)).1], 0⟩, w') := by
  unfold runToOutcome
  simp only [Action.run_bind, Action.run_inSpan, Action.run_note, Action.run_outcome]
  rw [← begun]
  rcases step.run.run (step.begun runId w) with ⟨e | ⟨⟩, w'⟩
  · exact ⟨_, rfl⟩
  · exact ⟨_, rfl⟩

/-- A run always comes to an outcome. That is a success if the work is one, and has the text of the
    error otherwise. -/
theorem run_runToOutcome (step : BuildStep σ) (runId : String) (w : World σ) :
    ∃ state w', (step.runToOutcome runId : Action σ ε StepOutcome).run w =
        (.ok ⟨step.name, runId, state, 0⟩, w') ∧
      ((step.run.run (step.begun runId w)).1 = .ok () ∧ state = .succeeded ∨
        ∃ e, (step.run.run (step.begun runId w)).1 = .error e ∧ state = .failed e.message) := by
  obtain ⟨w', hrun⟩ := run_runToOutcome_eq (ε := ε) step runId w
  generalize (step.run.run (step.begun runId w)).1 = result at hrun ⊢
  have hends : StepCall.Ends [.start, .finish result] result := ⟨[], [], [], rfl, by simp, by simp⟩
  refine ⟨_, w', hrun, ?_⟩
  rw [hends.stateAfter_eq]
  rcases result with e | ⟨⟩
  · exact Or.inr ⟨e, rfl, rfl⟩
  · exact Or.inl ⟨rfl, rfl⟩

end BuildStep

namespace StepCall

/-- A run follows its lifecycle, whatever is called and in whatever order: the first `start` is
    accepted, and so is the first `finish` after it, while all other calls are refused and leave the
    state as it is. So these two calls alone decide the state, and a run that is over stays as it
    is. A step is therefore always run to its end, which tells the outcome of its work, by the text
    of the error if it failed, and by the exit code. -/
theorem run_follows_lifecycle (calls : List StepCall) :
    (∀ before call after, calls = before ++ call :: after →
      (Counts before call → call.apply (stateAfter before) = .ok (stateAfter (before ++ [call]))) ∧
      (¬Counts before call →
        (∃ reason, call.apply (stateAfter before) = .error (.invalidTransition reason)) ∧
          stateAfter (before ++ [call]) = stateAfter before)) ∧
    (stateAfter calls = .constructed ↔ start ∉ calls) ∧
    (stateAfter calls = .running ↔ start ∈ calls ∧ ∀ outcome, ¬Ends calls outcome) ∧
    (Ends calls (.ok ()) → stateAfter calls = .succeeded) ∧
    (∀ e, Ends calls (.error e) → stateAfter calls = .failed e.message) ∧
    ((stateAfter calls).isTerminal = true ↔ ∃ outcome, Ends calls outcome) ∧
    (∀ later, (stateAfter calls).isTerminal = true →
      stateAfter (calls ++ later) = stateAfter calls) ∧
    ∀ {σ ε : Type} (step : BuildStep σ) (runId : String) (w : World σ), ∃ outcome w',
      (step.runToOutcome runId : Action σ ε StepOutcome).run w = (.ok outcome, w') ∧
      outcome.state.isTerminal = true ∧
      ((step.run.run (step.begun runId w)).1 = .ok () ∧ outcome.state = .succeeded ∧
          outcome.exitCode = 0 ∨
        ∃ e, (step.run.run (step.begun runId w)).1 = .error e ∧
          outcome.state = .failed e.message ∧ outcome.exitCode = 1) := by
  refine ⟨fun before call after _ => ⟨fun h => h.apply_eq, apply_of_not_counts⟩,
    stateAfter_eq_constructed_iff, stateAfter_eq_running_iff, fun h => h.stateAfter_eq,
    fun e h => h.stateAfter_eq, isTerminal_stateAfter_iff,
    fun later h => stateAfter_append_of_isTerminal h later, ?_⟩
  intro σ ε step runId w
  obtain ⟨state, w', hrun, ⟨hwork, rfl⟩ | ⟨e, hwork, rfl⟩⟩ := step.run_runToOutcome (ε := ε) runId w
  · exact ⟨_, w', hrun, rfl, Or.inl ⟨hwork, rfl, rfl⟩⟩
  · exact ⟨_, w', hrun, rfl, Or.inr ⟨e, hwork, rfl, rfl⟩⟩

/-- Of calls that come too early, too often or too late none counts. -/
example : stateAfter [finish (.ok ()), start, start, finish (.error (.invalidConfig "x")),
    finish (.ok ()), start] = .failed "Invalid step configuration: x" := rfl

end StepCall

end StepRunner
