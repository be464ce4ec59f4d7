import StepRunner.Proofs.Sync.Objects

namespace StepRunner

/-- The storage that also writes down which objects it was asked to download. -/
def Storage.recording {σ : Type} (storage : Storage σ) : Storage (σ × List RemoteObject) where
  list base dir := (storage.list base dir).focus Prod.fst fun inner outer => (inner, outer.2)
  download base dir object path := do
    modify fun w => { w with remote := (w.remote.1, w.remote.2 ++ [object]) }
    (storage.download base dir object path).focus Prod.fst fun inner outer => (inner, outer.2)

namespace Sync

variable {σ : Type} {storage : Storage σ} {base dir localDir destination : String}
  {object : RemoteObject} {w w' : World σ} {report report' : SyncReport}
  {listed rest : List RemoteObject}

/-- The world in which some downloads have been written down. -/
def recorded (w : World σ) (calls : List RemoteObject) : World (σ × List RemoteObject) :=
  ⟨w.machine, (w.remote, calls)⟩

theorem fetch_recording (h : (fetch storage base dir object destination).run w = (.ok (), w'))
    (calls : List RemoteObject) :
    (fetch storage.recording base dir object destination).run (recorded w calls) =
      (.ok (), recorded w' (calls ++ [object])) := by
  cases hparent : Path.parent? destination with
  | none =>
    simp only [fetch, hparent] at h
    cases h
  | some parent =>
    simp only [fetch, hparent] at h ⊢
    obtain ⟨_, _, hmade, h⟩ := Action.run_bind_eq_ok.1 h
    obtain ⟨grown, hmake, rfl⟩ := Action.run_onDisk_eq_ok.1 hmade
    rw [Action.run_bind, Action.run_machine] at h
    simp only at h
    obtain ⟨staging, _, hstaged, h⟩ := Action.run_bind_eq_ok.1 h
    obtain ⟨staged, htemp, rfl⟩ := Action.run_onDisk_eq_ok.1 hstaged
    obtain ⟨_, w₁, hdownload, h⟩ := Action.run_bind_eq_ok.1 h
    rw [orDiscard_eq_ok] at hdownload
    obtain ⟨_, _, hrenamed, h⟩ := Action.run_bind_eq_ok.1 h
    rw [orDiscard_eq_ok] at hrenamed
    obtain ⟨moved, hrename, rfl⟩ := Action.run_onDisk_eq_ok.1 hrenamed
    obtain ⟨final, hset, rfl⟩ := Action.run_onDisk_eq_ok.1 h
    refine Action.run_bind_eq_ok.2 ⟨(), _, Action.run_onDisk_eq_ok.2 ⟨grown, hmake, rfl⟩, ?_⟩
    rw [Action.run_bind, Action.run_machine]
    refine Action.run_bind_eq_ok.2 ⟨staging, _, Action.run_onDisk_eq_ok.2 ⟨staged, htemp, rfl⟩, ?_⟩
    refine Action.run_bind_eq_ok.2 ⟨(), recorded w₁ (calls ++ [object]), ?_, ?_⟩
    · rw [orDiscard_eq_ok]
      simp only [Storage.recording]
      rw [Action.run_bind, Action.run_modify]
      simp only
      rw [Action.run_focus]
      simp only [recorded]
      rw [hdownload]
    · refine Action.run_bind_eq_ok.2 ⟨(), recorded
        ⟨{ w₁.machine with tree := moved }, w₁.remote⟩ (calls ++ [object]), ?_, ?_⟩
      · rw [orDiscard_eq_ok]
        exact Action.run_onDisk_eq_ok.2 ⟨moved, hrename, rfl⟩
      · exact Action.run_onDisk_eq_ok.2 ⟨final, hset, rfl⟩

theorem object_recording
    (h : (Sync.object storage base dir localDir report object).run w = (.ok report', w'))
    (calls : List RemoteObject) : ∃ more,
    (Sync.object storage.recording base dir localDir report object).run (recorded w calls) =
      (.ok report', recorded w' (calls ++ more)) ∧
    report'.downloaded = report.downloaded ++ more.map (·.relativePath) ∧ more.Sublist [object] := by
  rw [Sync.object] at h ⊢
  obtain ⟨destination, _, hpath, h⟩ := Action.run_bind_eq_ok.1 h
  rw [Action.run_lift] at hpath
  injection hpath with hpath hsame
  subst hsame
  rw [Action.run_bind, Action.run_machine] at h
  simp only at h
  obtain ⟨current, _, hcurrent, h⟩ := Action.run_bind_eq_ok.1 h
  rw [Action.run_lift] at hcurrent
  injection hcurrent with hcurrent hsame
  subst hsame
  rw [Action.run_bind, Action.run_lift, hpath]
  simp only
  rw [Action.run_bind, Action.run_machine]
  simp only [recorded]
  rw [Action.run_bind, Action.run_lift, hcurrent]
  cases current with
  | true =>
    simp only [if_true] at h ⊢
    rw [Action.run_bind, Action.run_note] at h ⊢
    cases h
    exact ⟨[], by rw [List.append_nil]; rfl, by simp, List.nil_sublist _⟩
  | false =>
    simp only [Bool.false_eq_true, if_false] at h ⊢
    obtain ⟨_, w₁, hfetch, h⟩ := Action.run_bind_eq_ok.1 h
    have hrecorded := fetch_recording hfetch calls
    unfold recorded at hrecorded
    rw [Action.run_bind, hrecorded]
    simp only
    rw [Action.run_bind, Action.run_note] at h ⊢
    cases h
    exact ⟨[object], rfl, rfl, .refl _⟩

theorem objects_recording
    (h : (objects storage base dir localDir report rest).run w = (.ok report', w'))
    (calls : List RemoteObject) : ∃ more,
    (objects storage.recording base dir localDir report rest).run (recorded w calls) =
      (.ok report', recorded w' (calls ++ more)) ∧
    report'.downloaded = report.downloaded ++ more.map (·.relativePath) ∧ more.Sublist rest := by
  induction rest generalizing report w calls with
  | nil =>
    cases h
    exact ⟨[], by rw [List.append_nil]; rfl, by simp, .refl _⟩
  | cons first rest ih =>
    rw [objects_cons] at h ⊢
    obtain ⟨middle, w₁, hfirst, hrest⟩ := Action.run_bind_eq_ok.1 h
    obtain ⟨more, hrun, hmore, hsub⟩ := object_recording hfirst calls
    obtain ⟨others, hrun', hothers, hsub'⟩ := ih hrest (calls ++ more)
    refine ⟨more ++ others, ?_, ?_, hsub.append hsub'⟩
    · rw [Action.run_bind, hrun, ← List.append_assoc]
      exact hrun'
    · rw [hothers, hmore, List.map_append, List.append_assoc]

theorem listing_recording (h : (listing storage base dir localDir).run w = (.ok listed, w'))
    (calls : List RemoteObject) :
    (listing storage.recording base dir localDir).run (recorded w calls) =
      (.ok listed, recorded w' calls) := by
  rw [listing, Action.run_bind, Action.run_note] at h ⊢
  simp only at h ⊢
  obtain ⟨_, _, hmade, hlist⟩ := Action.run_bind_eq_ok.1 h
  obtain ⟨tree, hmake, rfl⟩ := Action.run_onDisk_eq_ok.1 hmade
  refine Action.run_bind_eq_ok.2 ⟨(), _, Action.run_onDisk_eq_ok.2 ⟨tree, hmake, rfl⟩, ?_⟩
  simp only [Storage.recording]
  rw [Action.run_focus]
  simp only [recorded]
  rw [hlist]

/-- A sync does the same with a storage that writes down downloads, and for each object that it
    reports as downloaded, and for no other, the storage was asked once, in this order. -/
theorem directory_recording
    (h : (directory storage base dir localDir).run w = (.ok report, w')) : ∃ calls,
    (directory storage.recording base dir localDir).run (recorded w []) =
      (.ok report, recorded w' calls) ∧ calls.map (·.relativePath) = report.downloaded := by
  rw [directory] at h ⊢
  obtain ⟨listed, w₁, hlisting, h⟩ := Action.run_bind_eq_ok.1 h
  obtain ⟨middle, w₂, hobjects, h⟩ := Action.run_bind_eq_ok.1 h
  obtain ⟨calls, hobjects', hcalls, _⟩ := objects_recording hobjects []
  rw [Action.run_bind, Action.run_note] at h
  cases h
  refine ⟨calls, ?_, hcalls.symm⟩
  rw [Action.run_bind, listing_recording hlisting]
  simp only
  rw [Action.run_bind, hobjects']
  rfl

end Sync

end StepRunner
