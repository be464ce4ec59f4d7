import StepRunner.Json.Fields
import StepRunner.Step.Context
import StepRunner.Step.Harness
import StepRunner.Text.Decimal
import StepRunner.Text.Uuid

namespace StepRunner

/-- A natural number of 64 bits. -/
def word64? : Json → Option Nat := Json.natural? Text.maxWord64

/-- The texts of a list. -/
def strings? : Json → Option (List String) := Json.list? Json.string?

namespace StepArguments

/-- The arguments as a list of pairs. -/
def toJson (args : StepArguments) : Json :=
  .array (args.entries.map fun (key, value) => Json.strings [key, value])

/-- A list of two texts as a pair. -/
def pair? : Json → Option (String × String)
  | .array [.string key, .string value] => some (key, value)
  | _ => none

/-- The arguments that a list of pairs gives. Keys may be repeated. -/
def ofJson? (value : Json) : Option StepArguments := (Json.list? pair? value).map .mk

end StepArguments

namespace StepState

/-- The state with its name, and the error beside it. -/
def toJson : StepState → Json
  | .constructed => Json.record [("state", .string "constructed")]
  | .running => Json.record [("state", .string "running")]
  | .succeeded => Json.record [("state", .string "succeeded")]
  | .failed error => Json.record [("state", .string "failed"), ("error", .string error)]

/-- The state with a name and what stands beside it, if anything does. -/
def ofParts? (name : String) (content : Option Json) : Option StepState :=
  let plain := fun (state : StepState) =>
    match content with
    | none | some .null => some state
    | some _ => none
  match name with
  | "constructed" => plain .constructed
  | "running" => plain .running
  | "succeeded" => plain .succeeded
  | "failed" => (content.bind Json.string?).map .failed
  | _ => none

/-- Whether the error comes before the name of the state, so that it has to be kept until then. -/
def errorComesFirst (members : List (Option String × Json)) : Bool :=
  (members.find? fun m => m.1 = some "state" || m.1 = some "error").any (·.1 = some "error")

/-- The state that a value gives. Below it values may nest less than `depth` deep. -/
def ofJson? (depth : Nat) (value : Json) : Option StepState :=
  match value with
  | .object members => do
    match ← value.fields? ["state", "error"] with
    | [name, content] =>
      if errorComesFirst members ∧ content.all (Json.keepable (depth - 1)) = false then none
      ofParts? (← Json.required? Json.string? name) content
    | _ => none
  | .array [.string name, content] => ofParts? name (some content)
  | _ => none

end StepState

namespace StepOutcome

/-- The outcome with its fields. -/
def toJson (outcome : StepOutcome) : Json := Json.record
  [("step_name", .string outcome.stepName), ("run_id", .string outcome.runId),
    ("state", outcome.state.toJson), ("duration_ms", .natural outcome.durationMs)]

/-- The outcome that a value gives. -/
def ofJson? (depth : Nat) (value : Json) : Option StepOutcome := do
  match ← value.fields? ["step_name", "run_id", "state", "duration_ms"] with
  | [stepName, runId, state, durationMs] =>
    return ⟨← Json.required? Json.string? stepName,
      ← Text.uuid? (← Json.required? Json.string? runId),
      ← Json.required? (StepState.ofJson? (depth - 1)) state, ← Json.required? word64? durationMs⟩
  | _ => none

end StepOutcome

namespace LocalPlaybackDirs

/-- The directories with their fields. -/
def toJson (dirs : LocalPlaybackDirs) : Json :=
  Json.record [("root", .string dirs.root), ("gm_image_subdir", .string dirs.gmImageSubdir)]

/-- The directories that a value gives. -/
def ofJson? (value : Json) : Option LocalPlaybackDirs := do
  match ← value.fields? ["root", "gm_image_subdir"] with
  | [root, gmImageSubdir] =>
    return ⟨← Json.required? Json.string? root, ← Json.required? Json.string? gmImageSubdir⟩
  | _ => none

end LocalPlaybackDirs

namespace StoragePlaybackDirs

/-- The directories with their fields. -/
def toJson (dirs : StoragePlaybackDirs) : Json :=
  Json.record [("gm_image_subdir", .string dirs.gmImageSubdir)]

/-- The directories that a value gives. -/
def ofJson? (value : Json) : Option StoragePlaybackDirs := do
  match ← value.fields? ["gm_image_subdir"] with
  | [gmImageSubdir] => return ⟨← Json.required? Json.string? gmImageSubdir⟩
  | _ => none

end StoragePlaybackDirs

namespace StepContext

/-- The context with its fields. -/
def toJson (ctx : StepContext) : Json := Json.record
  [("configuration", .string ctx.configuration), ("make_flags", Json.strings ctx.makeFlags),
    ("use_skp_playback_framework", .bool ctx.useSkpPlaybackFramework),
    ("builder_name", .string ctx.builderName),
    ("perf_output_basedir", .string ctx.perfOutputBasedir),
    ("gm_image_subdir", .string ctx.gmImageSubdir), ("parent_dir", .string ctx.parentDir),
    ("args", ctx.args.toJson), ("timeout_secs", Json.ofOption .natural ctx.timeoutSecs)]

/-- The context that a value gives. -/
def ofJson? (value : Json) : Option StepContext := do
  match ← value.fields? ["configuration", "make_flags", "use_skp_playback_framework",
      "builder_name", "perf_output_basedir", "gm_image_subdir", "parent_dir", "args",
      "timeout_secs"] with
  | [configuration, makeFlags, usePlayback, builderName, basedir, subdir, parentDir, args,
      timeoutSecs] =>
    return {
      configuration := ← Json.required? Json.string? configuration
      makeFlags := ← Json.required? strings? makeFlags
      useSkpPlaybackFramework := ← Json.required? Json.bool? usePlayback
      builderName := ← Json.required? Json.string? builderName
      perfOutputBasedir := ← Json.required? Json.string? basedir
      gmImageSubdir := ← Json.required? Json.string? subdir
      parentDir := ← Json.required? Json.string? parentDir
      args := ← Json.required? StepArguments.ofJson? args
      timeoutSecs := ← Json.optional? word64? timeoutSecs }
  | _ => none

end StepContext

end StepRunner
