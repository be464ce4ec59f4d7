import StepRunner.Codec.Config
import StepRunner.Proofs.Codec.Step

namespace StepRunner

namespace CompileConfig

/-- The time limit is a number of 64 bits. -/
def IsValue (config : CompileConfig) : Prop := config.timeoutSecs ≤ Text.maxWord64

theorem isCodec : Json.IsCodec IsValue toJson ofJson? := by
  refine .record ["target", "device", "build_type", "extra_flags", "parent_dir", "timeout_secs"]
    (fun config : CompileConfig => [.string config.target, .string config.device,
      .string config.buildType, Json.strings config.extraFlags, .string config.parentDir,
      .natural config.timeoutSecs])
    (by decide) (fun _ => rfl) (by simp [isCodec_strings.isPlain]) ?_ ?_
  · intro config hconfig
    simp [Json.required?, Json.string?, isCodec_strings.read?_write,
      isCodec_word64.read?_write _ hconfig]
  · intro given config h
    split at h
    · simp only [Option.bind_eq_bind, Option.bind_eq_some_iff] at h
      obtain ⟨_, -, _, -, _, -, _, -, _, -, seconds, hseconds, h⟩ := h
      cases h
      exact isCodec_word64.isValue_required? hseconds
    · cases h

end CompileConfig

namespace DeviceRunner

/-- The record of a runner may be kept until the kind is known. -/
theorem keepable_toJson {depth : ℕ} (hdepth : 1 < depth) (runner : DeviceRunner) :
    runner.toJson.keepable depth = true := by
  cases runner <;> simp [toJson, Json.record, Json.keepable, Json.keepableMembers, hdepth]

theorem isCodec {depth : ℕ} (hdepth : 1 < depth) :
    Json.IsCodec (fun _ => True) toJson (ofJson? depth) where
  isPlain runner := by
    cases runner <;> exact .record (by simp)
  read?_write runner _ := by
    rw [ofJson?.eq_def, keepable_toJson hdepth runner]
    cases runner <;> simp [toJson, Json.record, Json.uniqueMember?, Json.required?, Json.string?]
  isValue _ := trivial

end DeviceRunner

namespace BenchConfig

/-- The repeats are a number of 32 bits, and the time limit is one of 64 bits. -/
structure IsValue (config : BenchConfig) : Prop where
  repeats : config.repeats ≤ Text.maxWord32
  timeoutSecs : config.timeoutSecs ≤ Text.maxWord64

theorem isCodec {depth : ℕ} (hdepth : 2 < depth) :
    Json.IsCodec IsValue toJson (ofJson? depth) := by
  have hrunner := DeviceRunner.isCodec (by omega : 1 < depth - 1)
  have hrepeats := Json.isCodec_natural Text.maxWord32
  have htarget := Json.isCodec_string.option (fun _ => nofun)
  refine .record ["runner", "build_type", "parent_dir", "local_skp_dir", "target_skp_dir",
      "repeats", "timers", "extra_args", "timeout_secs"]
    (fun config : BenchConfig => [config.runner.toJson, .string config.buildType,
      .string config.parentDir, .string config.localSkpDir,
      Json.ofOption .string config.targetSkpDir, .natural config.repeats, .string config.timers,
      Json.strings config.extraArgs, .natural config.timeoutSecs])
    (by decide) (fun _ => rfl) ?_ ?_ ?_
  · simp [hrunner.isPlain, htarget.isPlain, isCodec_strings.isPlain]
  · intro config hconfig
    simp [Json.required?, Json.optional?, Json.string?, hrunner.read?_write,
      htarget.read?_write config.targetSkpDir fun _ _ => trivial,
      hrepeats.read?_write _ hconfig.repeats, isCodec_strings.read?_write,
      isCodec_word64.read?_write _ hconfig.timeoutSecs]
  · intro given config h
    split at h
    · simp only [Option.bind_eq_bind, Option.bind_eq_some_iff] at h
      obtain ⟨_, -, _, -, _, -, _, -, _, -, repeats, hread, _, -, _, -, seconds, hseconds, h⟩ := h
      cases h
      exact ⟨hrepeats.isValue_required? hread, isCodec_word64.isValue_required? hseconds⟩
    · cases h

end BenchConfig

namespace SyncConfig

/-- The time limit is a number of 64 bits. -/
def IsValue (config : SyncConfig) : Prop := config.timeoutSecs ≤ Text.maxWord64

theorem isCodec : Json.IsCodec IsValue toJson ofJson? := by
  have hbase := Json.isCodec_string.option (fun _ => nofun)
  refine .record ["use_playback_framework", "dest_storage_base", "local_dirs", "storage_dirs",
      "timeout_secs"]
    (fun config : SyncConfig => [.bool config.usePlaybackFramework,
      Json.ofOption .string config.destStorageBase, config.localDirs.toJson,
      config.storageDirs.toJson, .natural config.timeoutSecs])
    (by decide) (fun _ => rfl) ?_ ?_ ?_
  · simp [hbase.isPlain, LocalPlaybackDirs.isCodec.isPlain, StoragePlaybackDirs.isCodec.isPlain]
  · intro config hconfig
    simp [Json.required?, Json.optional?, Json.bool?,
      hbase.read?_write config.destStorageBase fun _ _ => trivial,
      LocalPlaybackDirs.isCodec.read?_write, StoragePlaybackDirs.isCodec.read?_write,
      isCodec_word64.read?_write _ hconfig]
  · intro given config h
    split at h
    · simp only [Option.bind_eq_bind, Option.bind_eq_some_iff] at h
      obtain ⟨_, -, _, -, _, -, _, -, seconds, hseconds, h⟩ := h
      cases h
      exact isCodec_word64.isValue_required? hseconds
    · cases h

end SyncConfig

end StepRunner
