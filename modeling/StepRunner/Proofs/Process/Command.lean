import StepRunner.Process.Command
import StepRunner.Proofs.Action

namespace StepRunner.CommandSpec

variable {σ : Type} {programs : Programs} {spec : CommandSpec} {w : World σ}

/-- Noting lines cannot fail and writes to the log only. -/
theorem run_noteLines (level : Log.Level) (output : String) (w : World σ) :
    ∃ log, (noteLines level output).run w =
      (.ok (), { w with machine := { w.machine with log } }) := by
  unfold noteLines
  induction Text.lines output.toList generalizing w with
  | nil => exact ⟨w.machine.log, rfl⟩
  | cons line lines ih =>
    rw [List.forM, Action.run_bind, Action.run_note]
    exact ih _

/-- The lines of both outputs are noted before anything else is done. -/
theorem run_noteLines_bind {α : Type} (stdout stderr : String) (next : Action σ StepError α)
    (w : World σ) :
    ∃ log, (noteLines .info stdout >>= fun _ => noteLines .warn stderr >>= fun _ => next).run w =
      next.run { w with machine := { w.machine with log } } := by
  obtain ⟨log, hout⟩ := run_noteLines .info stdout w
  obtain ⟨log', herr⟩ := run_noteLines .warn stderr { w with machine := { w.machine with log } }
  refine ⟨log', ?_⟩
  rw [Action.run_bind, hout]
  simp only
  rw [Action.run_bind, herr]

/-- What a command starts does not depend on what has been noted. -/
theorem start_noted (spec : CommandSpec) (m : Machine) (log : List Log.Event)
    (span : Option Log.Span) : spec.start { m with log, span } = spec.start m := rfl

/-- How a command comes out once its program has come to its end. -/
def result (spec : CommandSpec) (execution : Execution) : Except StepError CommandOutput :=
  let stdout := outputText execution.stdout
  let stderr := outputText execution.stderr
  match execution.ending with
  | .unfinished => .error (.commandTimedOut spec.display spec.timeoutSecs)
  | .signalled => .error (.commandFailed spec.display (-1) stderr)
  | .exited status =>
    if status = 0 then .ok ⟨status, stdout, stderr⟩
    else .error (.commandFailed spec.display status stderr)

theorem run_of_start_eq_error {executable : String} {arguments : List String} {e : IoError}
    (hargv : spec.argv = executable :: arguments) (hstart : spec.start w.machine = .error e) :
    ((spec.run programs).run w).1 =
      .error (if e = .notFound then .commandNotFound executable else .io e) := by
  unfold run
  simp only [hargv, Action.run_bind, Action.run_note, Action.run_machine, start_noted, hstart,
    Action.run_throw]

theorem run_of_start_eq_ok {call : ProgramCall} (hargv : spec.argv ≠ [])
    (hstart : spec.start w.machine = .ok call) :
    ((spec.run programs).run w).1 = spec.result (programs w.machine.now call w.machine.tree) := by
  obtain ⟨executable, arguments, hargv⟩ := List.exists_cons_of_ne_nil hargv
  unfold run
  simp only [hargv, Action.run_bind, Action.run_note, Action.run_machine, start_noted, hstart,
    Action.run_modifyMachine]
  generalize programs w.machine.now call w.machine.tree = execution
  rw [result]
  cases execution.ending with
  | unfinished => rfl
  | signalled =>
    obtain ⟨log, hrun⟩ := run_noteLines_bind (outputText execution.stdout)
      (outputText execution.stderr) _ _
    rw [hrun]
    rfl
  | exited status =>
    obtain ⟨log, hrun⟩ := run_noteLines_bind (outputText execution.stdout)
      (outputText execution.stderr) _ _
    rw [hrun]
    simp only
    by_cases hstatus : status = 0
    · rw [if_neg (not_not.2 hstatus), if_pos hstatus]
      rfl
    · rw [if_pos hstatus, if_neg hstatus]
      rfl

end StepRunner.CommandSpec
