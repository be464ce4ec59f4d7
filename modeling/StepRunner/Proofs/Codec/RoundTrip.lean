import StepRunner.Json.Parser
import StepRunner.Proofs.Codec.Config
import StepRunner.Proofs.Codec.Storage

namespace StepRunner

/-- The types whose values are written as JSON. -/
inductive Serial where
  | stepState
  | stepOutcome
  | stepContext
  | stepArguments
  | remoteObject
  | syncReport
  | gsConfig
  | compileConfig
  | benchConfig
  | syncConfig
  | deviceRunner
  | localPlaybackDirs
  | storagePlaybackDirs

namespace Serial

/-- The type of the values. -/
def Value : Serial → Type
  | stepState => StepState
  | stepOutcome => StepOutcome
  | stepContext => StepContext
  | stepArguments => StepArguments
  | remoteObject => RemoteObject
  | syncReport => SyncReport
  | gsConfig => GsConfig
  | compileConfig => CompileConfig
  | benchConfig => BenchConfig
  | syncConfig => SyncConfig
  | deviceRunner => DeviceRunner
  | localPlaybackDirs => LocalPlaybackDirs
  | storagePlaybackDirs => StoragePlaybackDirs

/-- Whether the numbers of a value have the widths they should have, and its identifier the usual
    form. -/
def IsValue : (type : Serial) → type.Value → Prop
  | stepOutcome => StepOutcome.IsValue
  | stepContext => StepContext.IsValue
  | remoteObject => RemoteObject.IsValue
  | compileConfig => CompileConfig.IsValue
  | benchConfig => BenchConfig.IsValue
  | syncConfig => SyncConfig.IsValue
  | stepState | stepArguments | syncReport | gsConfig | deviceRunner | localPlaybackDirs
  | storagePlaybackDirs => fun _ => True

/-- The JSON that a value is written as. -/
def toJson : (type : Serial) → type.Value → Json
  | stepState => StepState.toJson
  | stepOutcome => StepOutcome.toJson
  | stepContext => StepContext.toJson
  | stepArguments => StepArguments.toJson
  | remoteObject => RemoteObject.toJson
  | syncReport => SyncReport.toJson
  | gsConfig => GsConfig.toJson
  | compileConfig => CompileConfig.toJson
  | benchConfig => BenchConfig.toJson
  | syncConfig => SyncConfig.toJson
  | deviceRunner => DeviceRunner.toJson
  | localPlaybackDirs => LocalPlaybackDirs.toJson
  | storagePlaybackDirs => StoragePlaybackDirs.toJson

/-- How deep JSON that has to be kept may nest in a text. -/
def maxDepth : ℕ := 128

/-- The value that JSON gives. -/
def ofJson? : (type : Serial) → Json → Option type.Value
  | stepState => StepState.ofJson? maxDepth
  | stepOutcome => StepOutcome.ofJson? maxDepth
  | stepContext => StepContext.ofJson?
  | stepArguments => StepArguments.ofJson?
  | remoteObject => RemoteObject.ofJson?
  | syncReport => SyncReport.ofJson?
  | gsConfig => GsConfig.ofJson?
  | compileConfig => CompileConfig.ofJson?
  | benchConfig => BenchConfig.ofJson? maxDepth
  | syncConfig => SyncConfig.ofJson?
  | deviceRunner => DeviceRunner.ofJson? maxDepth
  | localPlaybackDirs => LocalPlaybackDirs.ofJson?
  | storagePlaybackDirs => StoragePlaybackDirs.ofJson?

/-- The text of a value. -/
def encode (type : Serial) (value : type.Value) : String := Json.render (type.toJson value)

/-- The value that a text gives. -/
def decode? (type : Serial) (text : String) : Option type.Value :=
  (Json.parse? text).bind type.ofJson?

/-- Every type reads back what it writes. -/
theorem isCodec : (type : Serial) → Json.IsCodec type.IsValue type.toJson type.ofJson?
  | stepState => StepState.isCodec maxDepth
  | stepOutcome => StepOutcome.isCodec maxDepth
  | stepContext => StepContext.isCodec
  | stepArguments => StepArguments.isCodec
  | remoteObject => RemoteObject.isCodec
  | syncReport => SyncReport.isCodec
  | gsConfig => GsConfig.isCodec
  | compileConfig => CompileConfig.isCodec
  | benchConfig => BenchConfig.isCodec (by decide)
  | syncConfig => SyncConfig.isCodec
  | deviceRunner => DeviceRunner.isCodec (by decide)
  | localPlaybackDirs => LocalPlaybackDirs.isCodec
  | storagePlaybackDirs => StoragePlaybackDirs.isCodec

/-- The text of a value gives the value back; and what a text gives is a value, whose own text
    gives it again. -/
theorem decode?_encode (type : Serial) :
    (∀ value, type.IsValue value → type.decode? (type.encode value) = some value) ∧
    ∀ text value, type.decode? text = some value →
      type.IsValue value ∧ type.decode? (type.encode value) = some value := by
  have hencode : ∀ value, type.IsValue value → type.decode? (type.encode value) = some value :=
    fun value hvalue => type.isCodec.parse_render hvalue
  refine ⟨hencode, fun text value hread => ?_⟩
  obtain ⟨json, -, hjson⟩ := Option.bind_eq_some_iff.1 hread
  have hvalue : type.IsValue value := type.isCodec.isValue hjson
  exact ⟨hvalue, hencode value hvalue⟩

/-- A leap second of the year 10000 is given back, and so are directories from a text that has their
    fields in another order beside an unknown one. -/
theorem decode?_encode_leapSecond :
    let object : RemoteObject := ⟨"snow \"☃\"\n.skp",
      ⟨253402300859, 1500000000, by decide, by decide, by decide, by decide⟩, Text.maxWord64⟩
    let dirs : LocalPlaybackDirs := ⟨"perfdata", "base"⟩
    let text := Json.render (Json.record
      [("gm_image_subdir", .string "base"), ("mode", .null), ("root", .string "perfdata")])
    remoteObject.IsValue object ∧ remoteObject.decode? (remoteObject.encode object) = some object ∧
      localPlaybackDirs.decode? text = some dirs ∧
      localPlaybackDirs.decode? (localPlaybackDirs.encode dirs) = some dirs := by
  intro object dirs text
  have hobject : remoteObject.IsValue object := Nat.le_refl _
  have htext : localPlaybackDirs.decode? text = some dirs := by
    rw [decode?, Json.parse?_render (.record (by simp)), Option.bind_some]
    simp only [ofJson?, LocalPlaybackDirs.ofJson?]
    rw [Json.fields?_record (by simp)]
    simp [List.lookup_cons, Json.required?, Json.string?]
    rfl
  exact ⟨hobject, (decode?_encode remoteObject).1 object hobject, htext,
    ((decode?_encode localPlaybackDirs).2 text dirs htext).2⟩

end Serial

end StepRunner
