import StepRunner.Codec.Step
import StepRunner.Step.Bench
import StepRunner.Step.Compile
import StepRunner.Step.DownloadSkps

namespace StepRunner

namespace CompileConfig

/-- The configuration with its fields. -/
def toJson (config : CompileConfig) : Json := Json.record
  [("target", .string config.target), ("device", .string config.device),
    ("build_type", .string config.buildType), ("extra_flags", Json.strings config.extraFlags),
    ("parent_dir", .string config.parentDir), ("timeout_secs", .natural config.timeoutSecs)]

/-- The configuration that a value gives. -/
def ofJson? (value : Json) : Option CompileConfig := do
  match ← value.fields? ["target", "device", "build_type", "extra_flags", "parent_dir",
      "timeout_secs"] with
  | [target, device, buildType, extraFlags, parentDir, timeoutSecs] =>
    return ⟨← Json.required? Json.string? target, ← Json.required? Json.string? device,
      ← Json.required? Json.string? buildType, ← Json.required? strings? extraFlags,
      ← Json.required? Json.string? parentDir, ← Json.required? word64? timeoutSecs⟩
  | _ => none

end CompileConfig

namespace DeviceRunner

/-- The runner with the name of its kind. -/
def toJson : DeviceRunner → Json
  | .host => Json.record [("kind", .string "host")]
  | .android device => Json.record [("kind", .string "android"), ("device", .string device)]

/-- The runner that a value gives. All of it has to be kept until its kind is known; it may nest
    less than `depth` deep. -/
def ofJson? (depth : Nat) (value : Json) : Option DeviceRunner :=
  if !value.keepable depth then none
  else
    match value with
    | .object members => do
      match ← Json.uniqueMember? members "kind" with
      | some (.string "host") => some .host
      | some (.string "android") =>
        (Json.required? Json.string? (← Json.uniqueMember? members "device")).map .android
      | _ => none
    | .array [.string "host"] => some .host
    | .array [.string "android", .string device] => some (.android device)
    | _ => none

end DeviceRunner

namespace BenchConfig

/-- The configuration with its fields. -/
def toJson (config : BenchConfig) : Json := Json.record
  [("runner", config.runner.toJson), ("build_type", .string config.buildType),
    ("parent_dir", .string config.parentDir), ("local_skp_dir", .string config.localSkpDir),
    ("target_skp_dir", Json.ofOption .string config.targetSkpDir),
    ("repeats", .natural config.repeats), ("timers", .string config.timers),
    ("extra_args", Json.strings config.extraArgs), ("timeout_secs", .natural config.timeoutSecs)]

/-- The configuration that a value gives. -/
def ofJson? (depth : Nat) (value : Json) : Option BenchConfig := do
  match ← value.fields? ["runner", "build_type", "parent_dir", "local_skp_dir", "target_skp_dir",
      "repeats", "timers", "extra_args", "timeout_secs"] with
  | [runner, buildType, parentDir, localSkpDir, targetSkpDir, repeats, timers, extraArgs,
      timeoutSecs] =>
    return {
      runner := ← Json.required? (DeviceRunner.ofJson? (depth - 1)) runner
      buildType := ← Json.required? Json.string? buildType
      parentDir := ← Json.required? Json.string? parentDir
      localSkpDir := ← Json.required? Json.string? localSkpDir
      targetSkpDir := ← Json.optional? Json.string? targetSkpDir
      repeats := ← Json.required? (Json.natural? Text.maxWord32) repeats
      timers := ← Json.required? Json.string? timers
      extraArgs := ← Json.required? strings? extraArgs
      timeoutSecs := ← Json.required? word64? timeoutSecs }
  | _ => none

end BenchConfig

namespace SyncConfig

/-- The configuration with its fields. -/
def toJson (config : SyncConfig) : Json := Json.record
  [("use_playback_framework", .bool config.usePlaybackFramework),
    ("dest_storage_base", Json.ofOption .string config.destStorageBase),
    ("local_dirs", config.localDirs.toJson), ("storage_dirs", config.storageDirs.toJson),
    ("timeout_secs", .natural config.timeoutSecs)]

/-- The configuration that a value gives. -/
def ofJson? (value : Json) : Option SyncConfig := do
  match ← value.fields? ["use_playback_framework", "dest_storage_base", "local_dirs",
      "storage_dirs", "timeout_secs"] with
  | [usePlayback, destStorageBase, localDirs, storageDirs, timeoutSecs] =>
    return ⟨← Json.required? Json.bool? usePlayback,
      ← Json.optional? Json.string? destStorageBase,
      ← Json.required? LocalPlaybackDirs.ofJson? localDirs,
      ← Json.required? StoragePlaybackDirs.ofJson? storageDirs,
      ← Json.required? word64? timeoutSecs⟩
  | _ => none

end SyncConfig

end StepRunner
