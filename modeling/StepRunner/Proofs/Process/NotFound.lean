import StepRunner.Proofs.Process.Command
import StepRunner.Proofs.Process.Launch
import StepRunner.Proofs.Storage.Memory

namespace StepRunner.CommandSpec

open Launch (Lacks maxInterpreters shellPath)

variable {σ : Type} {programs : Programs} {spec : CommandSpec} {w : World σ} {m : Machine}
  {dir : Location} {executable : String} {arguments : List String}

/-- `spec.IsMissed m` says that something is not there that the command needs in order to start:
    its directory, its executable, or the shell that is to run a file of no known format. -/
inductive IsMissed (spec : CommandSpec) (m : Machine) : Prop
  | directory {cwd : String} (hcwd : spec.cwd = some cwd)
      (hstat : m.tree.stat m.workDir cwd = .error .notFound)
  | executable {dir : Location} (hdir : spec.directory m = .ok dir)
      (hlost : (spec.launch m dir).IsLost m.tree)
  | shell {dir : Location} {path : String} (hdir : spec.directory m = .ok dir)
      (hsearch : "PATH" ∈ spec.env.map Prod.fst) (hname : (spec.launch m dir).isPath = false)
      (hfind : (spec.launch m dir).find m.tree = .ok (.unknown path))
      (hshell : Lacks m.tree dir .notFound (maxInterpreters + 1) shellPath)

theorem directory_eq_notFound_iff : spec.directory m = .error .notFound ↔
    ∃ cwd, spec.cwd = some cwd ∧ m.tree.stat m.workDir cwd = .error .notFound := by
  rw [CommandSpec.directory]
  cases spec.cwd with
  | none => simp
  | some cwd =>
    simp only [Option.some.injEq, exists_eq_left']
    rcases m.tree.stat m.workDir cwd with e | ⟨place, _ | data | text⟩
    · simp
    · simp
    · exact iff_of_false (fun h => absurd (Except.error.inj h) (by decide)) nofun
    · exact iff_of_false (fun h => absurd (Except.error.inj h) (by decide)) nofun

theorem start_eq_notFound_iff :
    spec.start m = .error .notFound ↔ spec.hasNul = false ∧ spec.IsMissed m := by
  rw [start]
  cases hnul : spec.hasNul with
  | true => exact iff_of_false (fun h => absurd (Except.error.inj h) (by decide)) nofun
  | false =>
    rw [and_iff_right rfl]
    refine bind_eq_error_iff.trans ?_
    rw [directory_eq_notFound_iff]
    constructor
    · rintro (⟨cwd, hcwd, hstat⟩ | ⟨dir, hdir, hcall⟩)
      · exact .directory hcwd hstat
      rcases Launch.programCall_eq_notFound_iff.1 hcall with
        hlost | ⟨hsearch, ⟨path, hfind⟩, hshell⟩
      · exact .executable hdir hlost
      · obtain ⟨⟨key, value, hmem, rfl⟩, hname⟩ : (∃ key value, (key, value) ∈ spec.env ∧
            key = "PATH") ∧ (spec.launch m dir).isPath = false := by simpa using hsearch
        exact .shell hdir (List.mem_map.2 ⟨_, hmem, rfl⟩) hname hfind hshell
    · rintro (⟨hcwd, hstat⟩ | ⟨hdir, hlost⟩ | ⟨hdir, hsearch, hname, hfind, hshell⟩)
      · exact Or.inl ⟨_, hcwd, hstat⟩
      · exact Or.inr ⟨_, hdir, Launch.programCall_eq_notFound_iff.2 (Or.inl hlost)⟩
      · obtain ⟨⟨_, value⟩, hmem, rfl⟩ := List.mem_map.1 hsearch
        refine Or.inr ⟨_, hdir, Launch.programCall_eq_notFound_iff.2
          (Or.inr ⟨?_, ⟨_, hfind⟩, hshell⟩)⟩
        simp only [hname, Bool.not_false, Bool.and_true, List.any_eq_true]
        exact ⟨_, hmem, by simp⟩

/-- `spec.IsRefused m e` says that what the command needs is there and may not be used: its
    directory for the reason `e`, or its executable because it may not be executed. -/
inductive IsRefused (spec : CommandSpec) (m : Machine) : IoError → Prop
  | directory {e : IoError} (hdir : spec.directory m = .error e) (hfound : e ≠ .notFound) :
      IsRefused spec m e
  | executable {dir : Location} (hdir : spec.directory m = .ok dir)
      (hfits : (spec.launch m dir).Fits)
      (hall : ∀ path ∈ (spec.launch m dir).places,
        (spec.launch m dir).Forbids m.tree path ∨ (spec.launch m dir).PassesOver m.tree path)
      (hforbidden : ∃ path ∈ (spec.launch m dir).places, (spec.launch m dir).Forbids m.tree path) :
      IsRefused spec m .permissionDenied

theorem IsRefused.start_eq {e : IoError} (h : spec.IsRefused m e) (hnul : spec.hasNul = false) :
    e ≠ .notFound ∧ spec.start m = .error e := by
  rw [start, hnul]
  cases h with
  | directory hdir hfound => exact ⟨hfound, bind_eq_error_iff.2 (Or.inl hdir)⟩
  | executable hdir hfits hall hforbidden =>
    refine ⟨by decide, bind_eq_error_iff.2 (Or.inr ⟨_, hdir, ?_⟩)⟩
    exact bind_eq_error_iff.2 (Or.inl (Launch.find_eq_permissionDenied hfits hall hforbidden))

/-- What a command that has started fails with: it took too long, or did not succeed. -/
theorem cases_of_result_eq_error {execution : Execution} {e : StepError}
    (h : spec.result execution = .error e) :
    e = .commandTimedOut spec.display spec.timeoutSecs ∨
      ∃ status stderr, e = .commandFailed spec.display status stderr := by
  rw [result] at h
  cases hending : execution.ending with
  | unfinished =>
    rw [hending] at h
    cases h
    exact Or.inl rfl
  | signalled =>
    rw [hending] at h
    cases h
    exact Or.inr ⟨_, _, rfl⟩
  | exited status =>
    simp only [hending] at h
    split at h
    · cases h
    · cases h
      exact Or.inr ⟨_, _, rfl⟩

/-- A command is said to be missing exactly if its start fails for want of something. -/
theorem run_eq_commandNotFound_iff (hargv : spec.argv = executable :: arguments) {name : String} :
    ((spec.run programs).run w).1 = .error (.commandNotFound name) ↔
      name = executable ∧ spec.start w.machine = .error .notFound := by
  cases hstart : spec.start w.machine with
  | error e =>
    rw [run_of_start_eq_error hargv hstart, Except.error.injEq, Except.error.injEq]
    by_cases he : e = .notFound
    · simp [he, eq_comm]
    · simp [he]
  | ok call =>
    rw [run_of_start_eq_ok (hargv ▸ List.cons_ne_nil _ _) hstart]
    refine iff_of_false (fun h => ?_) nofun
    rcases cases_of_result_eq_error h with ⟨⟨⟩⟩ | ⟨_, _, ⟨⟩⟩

theorem run_eq_io_iff (hargv : spec.argv = executable :: arguments) {e : IoError} :
    ((spec.run programs).run w).1 = .error (.io e) ↔
      e ≠ .notFound ∧ spec.start w.machine = .error e := by
  cases hstart : spec.start w.machine with
  | error e' =>
    rw [run_of_start_eq_error hargv hstart, Except.error.injEq, Except.error.injEq]
    by_cases he : e' = .notFound
    · simpa [he] using fun hne h => hne h.symm
    · rw [if_neg he, StepError.io.injEq]
      exact ⟨fun h => ⟨h ▸ he, h⟩, And.right⟩
  | ok call =>
    rw [run_of_start_eq_ok (hargv ▸ List.cons_ne_nil _ _) hstart]
    refine iff_of_false (fun h => ?_) nofun
    rcases cases_of_result_eq_error h with ⟨⟨⟩⟩ | ⟨_, _, ⟨⟩⟩

/-- `spec.IsClear m dir` says that nothing but the executable itself decides whether the command
    is found: it runs in a directory that is there, each place where it is looked for is plainly
    vacant or has a file in it whose interpreters are all there, and so is the shell if it may be
    needed. -/
structure IsClear (spec : CommandSpec) (m : Machine) (dir : Location) : Prop where
  hasNul_eq : spec.hasNul = false
  directory_eq : spec.directory m = .ok dir
  fits : (spec.launch m dir).Fits
  stat_eq : ∀ path ∈ (spec.launch m dir).places, m.tree.hasPath dir path = false →
    m.tree.stat dir path = .error .notFound
  not_passesOver : ∀ path ∈ (spec.launch m dir).places, m.tree.hasPath dir path = true →
    ¬(spec.launch m dir).PassesOver m.tree path
  not_lacks : "PATH" ∈ spec.env.map Prod.fst →
    ¬Lacks m.tree dir .notFound (maxInterpreters + 1) shellPath

theorem IsClear.isMissed_iff (h : spec.IsClear m dir) : spec.IsMissed m ↔
    ∀ path ∈ (spec.launch m dir).places, m.tree.hasPath dir path = false := by
  constructor
  · rintro (⟨hcwd, hstat⟩ | ⟨hdir, hlost⟩ | ⟨hdir, hsearch, _, _, hshell⟩) path hpath
    · have hnone := directory_eq_notFound_iff.2 ⟨_, hcwd, hstat⟩
      cases hnone.symm.trans h.directory_eq
    · cases hdir.symm.trans h.directory_eq
      cases hhas : m.tree.hasPath dir path with
      | false => rfl
      | true => exact absurd (hlost.passesOver path hpath) (h.not_passesOver path hpath hhas)
    · cases hdir.symm.trans h.directory_eq
      exact absurd hshell (h.not_lacks hsearch)
  · intro hnone
    have hlacks : ∀ path ∈ (spec.launch m dir).places,
        Lacks m.tree dir .notFound (maxInterpreters + 1) path :=
      fun path hpath => .file (h.stat_eq path hpath (hnone path hpath))
    exact .executable h.directory_eq
      ⟨h.fits, fun path hpath => Or.inl (hlacks path hpath),
        fun path hlast => hlacks path (List.mem_of_getLast? hlast)⟩

/-- A command is said to be missing exactly if its directory, its executable, an interpreter or the
    shell is not there. Where nothing else can be missing, that is the same as its executable being
    nowhere. Any other reason why it cannot be started is told as it is. -/
theorem run_notFound (hargv : spec.argv = executable :: arguments) :
    (∀ name, ((spec.run programs).run w).1 = .error (.commandNotFound name) ↔
      name = executable ∧ spec.hasNul = false ∧ spec.IsMissed w.machine) ∧
    (∀ dir, spec.IsClear w.machine dir →
      (((spec.run programs).run w).1 = .error (.commandNotFound executable) ↔
        ∀ path ∈ (spec.launch w.machine dir).places, w.machine.tree.hasPath dir path = false)) ∧
    (∀ e, ((spec.run programs).run w).1 = .error (.io e) ↔
      e ≠ .notFound ∧ spec.start w.machine = .error e) ∧
    ∀ e, spec.hasNul = false → spec.IsRefused w.machine e →
      ((spec.run programs).run w).1 = .error (.io e) := by
  refine ⟨fun name => ?_, fun dir hclear => ?_, fun e => run_eq_io_iff hargv,
    fun e hnul hrefused => (run_eq_io_iff hargv).2 (hrefused.start_eq hnul)⟩
  · rw [run_eq_commandNotFound_iff hargv, start_eq_notFound_iff]
  · rw [run_eq_commandNotFound_iff hargv, start_eq_notFound_iff, and_iff_right rfl,
      and_iff_right hclear.hasNul_eq, hclear.isMissed_iff]

/-- A machine with a program that stands where programs are looked for, and a text beside it. -/
def withCompiler : World ObjectStore :=
  ObjectStore.trial
    (((FileTree.empty.put ["bin"] .directory).put ["cc", "bin"]
      (.file ⟨ProgramCall.nativeImage "cc", ⟨0⟩, true⟩)).put ["readme", "bin"]
        (.file ⟨[], ⟨0⟩, false⟩)) []

/-- Programs that all succeed. -/
def succeeding : Programs := fun _ _ tree => ⟨.exited 0, [], [], tree⟩

theorem isClear_gcc : IsClear ⟨["gcc", "-c"], [], none, 60⟩ withCompiler.machine [] where
  hasNul_eq := by decide +kernel
  directory_eq := rfl
  fits := Or.inr (by decide +kernel)
  stat_eq := by decide +kernel
  not_passesOver := by
    have hnone : ∀ path ∈ (launch ⟨["gcc", "-c"], [], none, 60⟩ withCompiler.machine []).places,
        withCompiler.machine.tree.hasPath [] path = false := by decide +kernel
    intro path hpath hhas
    rw [hnone path hpath] at hhas
    cases hhas
  not_lacks := nofun

theorem isRefused_readme :
    IsRefused ⟨["readme"], [], none, 0⟩ withCompiler.machine .permissionDenied := by
  have hplaces : (launch ⟨["readme"], [], none, 0⟩ withCompiler.machine []).places =
      ["/bin/readme", "/usr/bin/readme"] := by decide +kernel
  have hforbids : (launch ⟨["readme"], [], none, 0⟩ withCompiler.machine []).Forbids
      withCompiler.machine.tree "/bin/readme" := by
    rw [Launch.Forbids]
    decide +kernel
  have hdir : CommandSpec.directory ⟨["readme"], [], none, 0⟩ withCompiler.machine = .ok [] := rfl
  refine .executable hdir (Or.inr (by decide +kernel)) ?_ ?_
  · rw [hplaces, List.forall_mem_cons, List.forall_mem_singleton]
    exact ⟨Or.inl hforbids, Or.inr (Or.inl (.file (by decide +kernel)))⟩
  · rw [hplaces]
    exact ⟨_, List.mem_cons_self, hforbids⟩

theorem run_notFound_gcc :
    ((run succeeding ⟨["gcc", "-c"], [], none, 60⟩).run withCompiler).1 =
      .error (.commandNotFound "gcc") ∧
    ((run succeeding ⟨["readme"], [], none, 0⟩).run withCompiler).1 =
      .error (.io .permissionDenied) := by
  constructor
  · exact ((run_notFound rfl).2.1 [] isClear_gcc).2 (by decide +kernel)
  · exact (run_notFound rfl).2.2.2 _ (by decide +kernel) isRefused_readme

/-- A command whose executable is there is said to be missing if its directory is. -/
theorem run_denies_executable :
    ((run succeeding ⟨["cc"], [], some "missing", 0⟩).run withCompiler).1 =
      .error (.commandNotFound "cc") ∧
    withCompiler.machine.tree.hasPath [] "/bin/cc" = true ∧
    ∀ dir, "/bin/cc" ∈ (launch ⟨["cc"], [], some "missing", 0⟩ withCompiler.machine dir).places := by
  have hstart : start ⟨["cc"], [], some "missing", 0⟩ withCompiler.machine = .error .notFound :=
    start_eq_notFound_iff.2 ⟨by decide +kernel, .directory rfl (by decide +kernel)⟩
  refine ⟨run_of_start_eq_error rfl hstart, by decide +kernel, fun dir => ?_⟩
  change "/bin/cc" ∈ (launch ⟨["cc"], [], some "missing", 0⟩ withCompiler.machine []).places
  decide +kernel

end StepRunner.CommandSpec
