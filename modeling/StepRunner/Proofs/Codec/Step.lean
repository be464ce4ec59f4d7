import StepRunner.Codec.Step
import StepRunner.Proofs.Json.Codec
import StepRunner.Proofs.Text.Uuid

namespace StepRunner

theorem isCodec_strings : Json.IsCodec (fun _ => True) Json.strings strings? where
  isPlain := Json.isCodec_string.list.isPlain
  read?_write texts _ := Json.isCodec_string.list.read?_write texts fun _ _ => trivial
  isValue _ := trivial

theorem isCodec_word64 : Json.IsCodec (· ≤ Text.maxWord64) .natural word64? :=
  Json.isCodec_natural Text.maxWord64

namespace LocalPlaybackDirs

theorem isCodec : Json.IsCodec (fun _ => True) toJson ofJson? :=
  .record ["root", "gm_image_subdir"]
    (fun dirs : LocalPlaybackDirs => [.string dirs.root, .string dirs.gmImageSubdir])
    (by decide) (fun _ => rfl) (by simp) (fun _ _ => rfl) (fun _ => trivial)

end LocalPlaybackDirs

namespace StoragePlaybackDirs

theorem isCodec : Json.IsCodec (fun _ => True) toJson ofJson? :=
  .record ["gm_image_subdir"] (fun dirs : StoragePlaybackDirs => [.string dirs.gmImageSubdir])
    (by decide) (fun _ => rfl) (by simp) (fun _ _ => rfl) (fun _ => trivial)

end StoragePlaybackDirs

namespace StepArguments

theorem isCodec_pair : Json.IsCodec (fun _ => True)
    (fun (key, value) => Json.strings [key, value]) pair? where
  isPlain _ := isCodec_strings.isPlain _
  read?_write _ _ := rfl
  isValue _ := trivial

theorem isCodec : Json.IsCodec (fun _ => True) toJson ofJson? where
  isPlain args := isCodec_pair.list.isPlain args.entries
  read?_write args _ := by
    have hread := isCodec_pair.list.read?_write args.entries (fun _ _ => trivial)
    exact congrArg (Option.map mk) hread
  isValue _ := trivial

end StepArguments

namespace StepState

/-- A state without an error is read back from its name alone. -/
theorem ofJson?_name (name : String) (depth : ℕ) :
    ofJson? depth (Json.record [("state", .string name)]) = ofParts? name none := by
  have hfields : (Json.record [("state", .string name)]).fields? ["state", "error"] =
      some [some (.string name), none] := by
    rw [Json.fields?_record (by simp)]
    simp
  rw [Json.record] at hfields ⊢
  simp only [ofJson?, hfields]
  simp [Json.required?, Json.string?]

/-- A state with an error is read back from its name and the error, for its name comes first. -/
theorem ofJson?_name_error (name error : String) (depth : ℕ) :
    ofJson? depth (Json.record [("state", .string name), ("error", .string error)]) =
      ofParts? name (some (.string error)) := by
  have hfields : (Json.record [("state", .string name), ("error", .string error)]).fields?
      ["state", "error"] = some [some (.string name), some (.string error)] :=
    Json.fields?_zip ["state", "error"] [.string name, .string error] (by decide) rfl
  have hfirst : errorComesFirst [(some "state", .string name), (some "error", .string error)] =
      false := by
    simp [errorComesFirst]
  rw [Json.record] at hfields ⊢
  simp only [List.map_cons, List.map_nil] at hfields ⊢
  simp only [ofJson?, hfields, hfirst]
  simp [Json.required?, Json.string?]

theorem isCodec (depth : ℕ) : Json.IsCodec (fun _ => True) toJson (ofJson? depth) where
  isPlain state := by
    cases state <;> exact .record (by simp)
  read?_write state _ := by
    cases state with
    | failed error =>
      rw [toJson, ofJson?_name_error]
      rfl
    | _ =>
      rw [toJson, ofJson?_name]
      rfl
  isValue _ := trivial

end StepState

namespace StepOutcome

/-- The run has an identifier in its usual form, and the duration is a number of 64 bits. -/
structure IsValue (outcome : StepOutcome) : Prop where
  runId : Text.IsUuid outcome.runId
  durationMs : outcome.durationMs ≤ Text.maxWord64

theorem isCodec (depth : ℕ) : Json.IsCodec IsValue toJson (ofJson? depth) := by
  have hstate := StepState.isCodec (depth - 1)
  refine .record ["step_name", "run_id", "state", "duration_ms"]
    (fun outcome : StepOutcome => [.string outcome.stepName, .string outcome.runId,
      outcome.state.toJson, .natural outcome.durationMs]) (by decide) (fun _ => rfl) ?_ ?_ ?_
  · simp [hstate.isPlain]
  · intro outcome houtcome
    simp [Json.required?, Json.string?, Text.uuid?_of_isUuid houtcome.runId, hstate.read?_write,
      isCodec_word64.read?_write _ houtcome.durationMs]
  · intro given outcome h
    split at h
    · simp only [Option.bind_eq_bind, Option.bind_eq_some_iff] at h
      obtain ⟨_, -, _, -, runId, hrunId, _, -, durationMs, hdurationMs, h⟩ := h
      cases h
      exact ⟨Text.isUuid_of_uuid? hrunId, isCodec_word64.isValue_required? hdurationMs⟩
    · cases h

end StepOutcome

namespace StepContext

/-- The time limit is a number of 64 bits. -/
def IsValue (ctx : StepContext) : Prop := ∀ seconds ∈ ctx.timeoutSecs, seconds ≤ Text.maxWord64

theorem isCodec : Json.IsCodec IsValue toJson ofJson? := by
  have htimeout := isCodec_word64.option (fun _ => nofun)
  refine .record ["configuration", "make_flags", "use_skp_playback_framework", "builder_name",
      "perf_output_basedir", "gm_image_subdir", "parent_dir", "args", "timeout_secs"]
    (fun ctx : StepContext => [.string ctx.configuration, Json.strings ctx.makeFlags,
      .bool ctx.useSkpPlaybackFramework, .string ctx.builderName, .string ctx.perfOutputBasedir,
      .string ctx.gmImageSubdir, .string ctx.parentDir, ctx.args.toJson,
      Json.ofOption .natural ctx.timeoutSecs])
    (by decide) (fun _ => rfl) ?_ ?_ ?_
  · simp [isCodec_strings.isPlain, StepArguments.isCodec.isPlain, htimeout.isPlain]
  · intro ctx hctx
    simp [Json.required?, Json.optional?, Json.string?, Json.bool?, isCodec_strings.read?_write,
      StepArguments.isCodec.read?_write, htimeout.read?_write _ hctx]
  · intro given ctx h
    split at h
    · simp only [Option.bind_eq_bind, Option.bind_eq_some_iff] at h
      obtain ⟨_, -, _, -, _, -, _, -, _, -, _, -, _, -, _, -, seconds, hseconds, h⟩ := h
      cases h
      exact isCodec_word64.isValue_optional? (fun _ => nofun) hseconds
    · cases h

end StepContext

end StepRunner
