import StepRunner.Codec.Storage
import StepRunner.Proofs.Codec.Step
import StepRunner.Proofs.Time.Timestamp

namespace StepRunner

/-- A timestamp in a record is read back from its text. -/
theorem isCodec_timestamp : Json.IsCodec (fun _ => True)
    (fun t : Timestamp => .string (String.ofList t.text)) Storage.Page.timestamp? where
  isPlain _ := .string _
  read?_write t _ := by
    rw [Storage.Page.timestamp?, Json.string?, Option.bind_some, String.toList_ofList,
      Timestamp.readLenient?_text]
  isValue _ := trivial

namespace RemoteObject

/-- The size is a number of 64 bits. -/
def IsValue (object : RemoteObject) : Prop := object.size ≤ Text.maxWord64

theorem isCodec : Json.IsCodec IsValue toJson ofJson? := by
  refine .record ["relative_path", "updated", "size"]
    (fun object : RemoteObject => [.string object.relativePath,
      .string (String.ofList object.updated.text), .natural object.size])
    (by decide) (fun _ => rfl) (by simp) ?_ ?_
  · intro object hobject
    simp [Json.required?, Json.string?, isCodec_timestamp.read?_write object.updated trivial,
      isCodec_word64.read?_write _ hobject]
  · intro given object h
    split at h
    · simp only [Option.bind_eq_bind, Option.bind_eq_some_iff] at h
      obtain ⟨_, -, _, -, size, hsize, h⟩ := h
      cases h
      exact isCodec_word64.isValue_required? hsize
    · cases h

end RemoteObject

namespace SyncReport

theorem isCodec : Json.IsCodec (fun _ => True) toJson ofJson? :=
  .record ["downloaded", "up_to_date"]
    (fun report : SyncReport => [Json.strings report.downloaded, Json.strings report.upToDate])
    (by decide) (fun _ => rfl) (by simp [isCodec_strings.isPlain])
    (fun _ _ => by simp [Json.required?, isCodec_strings.read?_write]) (fun _ => trivial)

end SyncReport

namespace GsConfig

theorem isCodec : Json.IsCodec (fun _ => True) toJson ofJson? :=
  .record ["use_cli", "gsutil_path", "api_base", "download_base"]
    (fun config : GsConfig => [.bool config.useTool, .string config.toolPath,
      .string config.apiBase, .string config.downloadBase])
    (by decide) (fun _ => rfl) (by simp) (fun _ _ => rfl) (fun _ => trivial)

end GsConfig

end StepRunner
