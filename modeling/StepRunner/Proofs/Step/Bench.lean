import StepRunner.Proofs.Step.Arguments
import StepRunner.Proofs.Text.Decimal
import StepRunner.Proofs.Text.Words
import StepRunner.Step.Bench

namespace StepRunner.BenchConfig

variable {ctx : StepContext} {args : StepArguments} {device : String} {n : ℕ}

/-- The texts that tell how often a benchmark is repeated: numerals of 32 bits, but not zero. -/
def IsCount (raw : String) (n : ℕ) : Prop :=
  Text.IsNumeral raw.toList n ∧ 1 ≤ n ∧ n ≤ 2 ^ 32 - 1

/-- A benchmark is repeated as often as the arguments say, and otherwise the usual number of
    times. -/
def IsRepeated (args : StepArguments) (n : ℕ) : Prop :=
  match args.get? "bench_repeats" with
  | none => n = defaultRepeats
  | some raw => IsCount raw n

theorem isCount_iff {raw : String} :
    IsCount raw n ↔ Text.unsigned? Text.maxWord32 raw.toList = some n ∧ n ≠ 0 := by
  rw [IsCount, Text.unsigned?_eq_some_iff, Nat.one_le_iff_ne_zero, and_assoc]
  exact and_congr_right' and_comm

theorem repeatsOf_eq_ok_iff : repeatsOf args = .ok n ↔ IsRepeated args n := by
  rw [repeatsOf, IsRepeated]
  cases args.get? "bench_repeats" with
  | none => exact ⟨by rintro ⟨⟩; rfl, by rintro rfl; rfl⟩
  | some raw =>
    simp only [isCount_iff]
    cases Text.unsigned? Text.maxWord32 raw.toList with
    | none => exact iff_of_false nofun nofun
    | some m =>
      by_cases hzero : m = 0
      · refine iff_of_false (by rw [hzero]; nofun) ?_
        rintro ⟨⟨⟩, hne⟩
        exact hne hzero
      · simp only [pure_bind, if_neg hzero]
        constructor
        · rintro ⟨⟩
          exact ⟨rfl, hzero⟩
        · rintro ⟨⟨⟩, _⟩
          rfl

/-- The arguments keep the benchmark from being configured only by a number of repeats that is
    none. -/
theorem exists_repeatsOf_eq_error_iff : (∃ e, repeatsOf args = .error e) ↔
    ∃ raw, args.get? "bench_repeats" = some raw ∧ ¬∃ n, IsCount raw n := by
  have hnot : (∃ e, repeatsOf args = .error e) ↔ ¬∃ n, IsRepeated args n := by
    simp only [← repeatsOf_eq_ok_iff]
    cases repeatsOf args with
    | error e => exact iff_of_true ⟨e, rfl⟩ fun ⟨_, h⟩ => nomatch h
    | ok n => exact iff_of_false (fun ⟨_, h⟩ => nomatch h) fun h => h ⟨n, rfl⟩
  rw [hnot]
  simp only [IsRepeated]
  cases args.get? "bench_repeats" with
  | none => exact iff_of_false (fun h => h ⟨_, rfl⟩) fun ⟨_, h, _⟩ => nomatch h
  | some raw => simp only [Option.some.injEq, exists_eq_left']

/-- What a context asks for, repeated `n` times. -/
def configured (ctx : StepContext) (runner : DeviceRunner) (defaultTimeoutSecs n : ℕ) :
    BenchConfig where
  runner := runner
  buildType := ctx.configuration
  parentDir := ctx.parentDir
  localSkpDir := ctx.localDirs.skp
  targetSkpDir := ctx.args.get? "device_skp_dir"
  repeats := n
  timers := (ctx.args.get? "bench_timers").getD defaultTimers
  extraArgs := (Text.words ((ctx.args.get? "bench_args").getD "").toList).map String.ofList
  timeoutSecs := ctx.timeoutOr defaultTimeoutSecs

theorem ofContext_eq_map (ctx : StepContext) (runner : DeviceRunner) (defaultTimeoutSecs : ℕ) :
    ofContext ctx runner defaultTimeoutSecs =
      (repeatsOf ctx.args).map (configured ctx runner defaultTimeoutSecs) := by
  rw [ofContext]
  cases repeatsOf ctx.args with
  | error e => rfl
  | ok n =>
    rw [Except.map, configured]
    cases ctx.args.get? "bench_args" with
    | none =>
      have hwords : Text.words "".toList = [] := by simp [Text.words]
      rw [Option.getD_none, hwords]
      rfl
    | some args => rfl

/-- With a device, what is asked for on it differs in the runner and the usual time limit. -/
theorem ofContextOnDevice_eq_map (hdevice : ctx.args.get? "device" = some device)
    (hne : device ≠ "") : ofContextOnDevice ctx =
      (repeatsOf ctx.args).map (configured ctx (.android device) androidTimeoutSecs) := by
  rw [ofContextOnDevice, StepArguments.require_eq_ok_iff.2 ⟨hdevice, hne⟩]
  exact ofContext_eq_map ctx (.android device) androidTimeoutSecs

/-- `RunsAlike ctx host android` says that the benchmark that a context asks for on this machine is
    the same as the one on a device: only the runner and, if the context has none, the time limit
    are other ones, and both commands end in the same arguments. The context says which: the
    directory of the pictures where the executable sees it, how often and with which timers it is
    to run, and whatever other words it is given. -/
structure RunsAlike (ctx : StepContext) (host android : BenchConfig) : Prop where
  fields_eq : { android with runner := host.runner, timeoutSecs := host.timeoutSecs } = host
  timeoutSecs_eq : ctx.timeoutSecs ≠ none → android.timeoutSecs = host.timeoutSecs
  arguments_eq : host.command.argv.drop 1 = android.command.argv.drop 5
  exists_arguments : ∃ n words, IsRepeated ctx.args n ∧
    Text.Splits ((ctx.args.get? "bench_args").getD "").toList words ∧
    host.command.argv.drop 1 =
      (ctx.args.get? "device_skp_dir").getD ctx.localDirs.skp :: "--repeat" :: toString n ::
        "--timers" :: (ctx.args.get? "bench_timers").getD "wc" :: words.map String.ofList
  isRelease_iff : android.command.argv[3]? = some "--release" ↔ ctx.isRelease = true

theorem runsAlike_configured (h : IsRepeated ctx.args n) (device : String) (hostTimeout : ℕ) :
    RunsAlike ctx (configured ctx .host hostTimeout n)
      (configured ctx (.android device) androidTimeoutSecs n) where
  fields_eq := rfl
  timeoutSecs_eq hgiven := by
    obtain ⟨secs, hsecs⟩ := Option.ne_none_iff_exists'.1 hgiven
    simp only [configured, StepContext.timeoutOr, hsecs, Option.getD_some]
  arguments_eq := rfl
  exists_arguments := ⟨n, _, h, Text.words_eq_iff.1 rfl, rfl⟩
  isRelease_iff := by
    have hflag : (configured ctx (.android device) androidTimeoutSecs n).command.argv[3]? =
        some (if ctx.isRelease then "--release" else "--debug") := rfl
    rw [hflag, Option.some.injEq]
    cases ctx.isRelease <;> decide

/-- The same benchmark is run on this machine and on a device. A context that names a device cannot
    be configured for the one exactly if it cannot for the other, for the same reason, and that is
    a number of repeats that is none of 32 bits above zero. Otherwise both run alike. -/
theorem ofContext_runsAlike (hdevice : ctx.args.get? "device" = some device) (hne : device ≠ "")
    (hostTimeout : ℕ) :
    (∀ e, ofContextOnDevice ctx = .error e ↔ ofContext ctx .host hostTimeout = .error e) ∧
    ((∃ e, ofContextOnDevice ctx = .error e) ↔
      ∃ raw, ctx.args.get? "bench_repeats" = some raw ∧ ¬∃ n, IsCount raw n) ∧
    ∀ host android, ofContext ctx .host hostTimeout = .ok host →
      ofContextOnDevice ctx = .ok android →
      host.runner = .host ∧ android.runner = .android device ∧ RunsAlike ctx host android := by
  rw [ofContext_eq_map, ofContextOnDevice_eq_map hdevice hne]
  refine ⟨?_, ?_, ?_⟩
  · intro e
    cases repeatsOf ctx.args with
    | error e => exact Iff.rfl
    | ok n => exact iff_of_false nofun nofun
  · rw [← exists_repeatsOf_eq_error_iff]
    cases repeatsOf ctx.args with
    | error e => exact iff_of_true ⟨e, rfl⟩ ⟨e, rfl⟩
    | ok n => exact iff_of_false (fun ⟨_, h⟩ => nomatch h) (fun ⟨_, h⟩ => nomatch h)
  · intro host android hhost handroid
    cases hrepeats : repeatsOf ctx.args with
    | error e =>
      rw [hrepeats] at hhost
      cases hhost
    | ok n =>
      rw [hrepeats] at hhost handroid
      cases hhost
      cases handroid
      exact ⟨rfl, rfl, runsAlike_configured (repeatsOf_eq_ok_iff.1 hrepeats) device hostTimeout⟩

/-- A context for a release build with a number of repeats that is written with a sign. -/
def signedContext : StepContext where
  configuration := "release"
  args := ⟨[("device", "nexus7"), ("bench_repeats", "+007"), ("bench_args", " --mode\ttile ")]⟩

theorem ofContext_runsAlike_signed : ∃ host android,
    ofContext signedContext .host 9600 = .ok host ∧ ofContextOnDevice signedContext = .ok android ∧
    RunsAlike signedContext host android ∧ android.command.argv[3]? = some "--release" ∧
    android.command.argv.drop 6 = ["--repeat", "7", "--timers", "wc", "--mode", "tile"] := by
  have hdevice : signedContext.args.get? "device" = some "nexus7" := by decide +kernel
  have hrepeats : repeatsOf signedContext.args = .ok 7 := by decide +kernel
  have hhost : ofContext signedContext .host 9600 = .ok (configured signedContext .host 9600 7) := by
    rw [ofContext_eq_map, hrepeats, Except.map]
  have handroid : ofContextOnDevice signedContext =
      .ok (configured signedContext (.android "nexus7") androidTimeoutSecs 7) := by
    rw [ofContextOnDevice_eq_map hdevice (by decide), hrepeats, Except.map]
  have halike := (ofContext_runsAlike hdevice (by decide) 9600).2.2 _ _ hhost handroid
  have hrelease : signedContext.isRelease = true := beq_self_eq_true _
  have harguments : (configured signedContext (.android "nexus7") androidTimeoutSecs
      7).command.argv.drop 6 = ["--repeat", "7", "--timers", "wc", "--mode", "tile"] := by
    decide +kernel
  exact ⟨_, _, hhost, handroid, halike.2.2, halike.2.2.isRelease_iff.2 hrelease, harguments⟩

end StepRunner.BenchConfig
