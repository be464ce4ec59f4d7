import StepRunner.Codec.Step
import StepRunner.Storage.Client
import StepRunner.Storage.Sync

namespace StepRunner

namespace RemoteObject

/-- The object with its fields. -/
def toJson (object : RemoteObject) : Json := Json.record
  [("relative_path", .string object.relativePath),
    ("updated", .string (String.ofList object.updated.text)), ("size", .natural object.size)]

/-- The object that a value gives. -/
def ofJson? (value : Json) : Option RemoteObject := do
  match ← value.fields? ["relative_path", "updated", "size"] with
  | [relativePath, updated, size] =>
    return ⟨← Json.required? Json.string? relativePath,
      ← Json.required? Storage.Page.timestamp? updated, ← Json.required? word64? size⟩
  | _ => none

end RemoteObject

namespace SyncReport

/-- The report with its fields. -/
def toJson (report : SyncReport) : Json := Json.record
  [("downloaded", Json.strings report.downloaded), ("up_to_date", Json.strings report.upToDate)]

/-- The report that a value gives. -/
def ofJson? (value : Json) : Option SyncReport := do
  match ← value.fields? ["downloaded", "up_to_date"] with
  | [downloaded, upToDate] =>
    return ⟨← Json.required? strings? downloaded, ← Json.required? strings? upToDate⟩
  | _ => none

end SyncReport

namespace GsConfig

/-- The configuration with its fields. -/
def toJson (config : GsConfig) : Json := Json.record
  [("use_cli", .bool config.useTool), ("gsutil_path", .string config.toolPath),
    ("api_base", .string config.apiBase), ("download_base", .string config.downloadBase)]

/-- The configuration that a value gives. -/
def ofJson? (value : Json) : Option GsConfig := do
  match ← value.fields? ["use_cli", "gsutil_path", "api_base", "download_base"] with
  | [useTool, toolPath, apiBase, downloadBase] =>
    return ⟨← Json.required? Json.bool? useTool, ← Json.required? Json.string? toolPath,
      ← Json.required? Json.string? apiBase, ← Json.required? Json.string? downloadBase⟩
  | _ => none

end GsConfig

end StepRunner
