import StepRunner.Proofs.Sync.Object

namespace StepRunner.Sync

open FileTree

variable {σ : Type} {storage : Storage σ} {base dir localDir destination path : String}
  {object : RemoteObject} {w w' : World σ} {e : StorageError} {report report' : SyncReport}
  {listed done rest calls : List RemoteObject}

theorem objects_cons (first : RemoteObject) (rest : List RemoteObject) (report : SyncReport) :
    objects storage base dir localDir report (first :: rest) =
      Sync.object storage base dir localDir report first >>= fun report =>
        objects storage base dir localDir report rest := rfl

/-- What each object that is synced keeps true of those before it, and of itself, is true of all
    objects in the end. -/
theorem objects_ok {all : List RemoteObject}
    (Inv : List RemoteObject → SyncReport → World σ → Prop)
    (step : ∀ {done object later report w report' w'}, all = done ++ object :: later →
      Inv done report w →
      (Sync.object storage base dir localDir report object).run w = (.ok report', w') →
      Inv (done ++ [object]) report' w')
    (h : (objects storage base dir localDir report rest).run w = (.ok report', w'))
    (hall : all = done ++ rest) (hinv : Inv done report w) : Inv all report' w' := by
  induction rest generalizing done report w with
  | nil =>
    cases h
    rwa [hall, List.append_nil]
  | cons first rest ih =>
    rw [objects_cons] at h
    obtain ⟨middle, w₁, hfirst, hrest⟩ := Action.run_bind_eq_ok.1 h
    have hall' : all = (done ++ [first]) ++ rest := by rw [hall, List.append_assoc]; rfl
    exact ih hrest hall' (step hall hinv hfirst)

/-- A sync of some objects that fails does so at one of them, after those before it. -/
theorem objects_error
    (h : (objects storage base dir localDir report rest).run w = (.error e, w')) :
    ∃ before object after middle w₁, rest = before ++ object :: after ∧
      (objects storage base dir localDir report before).run w = (.ok middle, w₁) ∧
      (Sync.object storage base dir localDir middle object).run w₁ = (.error e, w') := by
  induction rest generalizing report w with
  | nil => cases h
  | cons first rest ih =>
    rw [objects_cons] at h
    rcases Action.run_bind_eq_error.1 h with hfirst | ⟨middle, w₁, hfirst, hrest⟩
    · exact ⟨[], first, rest, report, w, rfl, rfl, hfirst⟩
    · obtain ⟨before, object, after, last, w₂, rfl, hbefore, hobject⟩ := ih hrest
      refine ⟨first :: before, object, after, last, w₂, rfl, ?_, hobject⟩
      rw [objects_cons]
      exact Action.run_bind_eq_ok.2 ⟨middle, w₁, hfirst, hbefore⟩

/-- What names a directory still names it after some objects were synced. -/
theorem objects_namesDirectory {here root place : Location} (hstorage : storage.WritesOnlyGiven)
    (hready : IsReady here root localDir w.machine)
    (hnames : w.machine.tree.NamesDirectory here path place)
    (hrun : (objects storage base dir localDir report rest).run w = (.ok report', w')) :
    w'.machine.tree.NamesDirectory here path place := by
  refine (objects_ok (fun _ _ now => IsReady here root localDir now.machine ∧
    now.machine.tree.NamesDirectory here path place) (fun _ ⟨hready, hnames⟩ hobject => ?_) hrun
    (List.nil_append _).symm ⟨hready, hnames⟩).2
  obtain ⟨hready', _, _, ⟨_, _, log, rfl⟩ | hfetched⟩ := object_ok_cases hstorage hready hobject
  · exact ⟨hready', hnames⟩
  · obtain ⟨_, _, _, _, _, hgrows, hlands, _⟩ := hfetched
    exact ⟨hready', hlands.namesDirectory (hnames.mono hgrows.keeps)⟩

/-- If the objects before one can be synced and that one cannot, the sync fails as it does. -/
theorem objects_of_error {before after : List RemoteObject} {w₁ : World σ}
    (hbefore : (objects storage base dir localDir report before).run w = (.ok report', w₁))
    (hobject : (Sync.object storage base dir localDir report' object).run w₁ = (.error e, w')) :
    (objects storage base dir localDir report (before ++ object :: after)).run w =
      (.error e, w') := by
  induction before generalizing report w with
  | nil =>
    cases hbefore
    rw [List.nil_append, objects_cons]
    exact Action.run_bind_eq_error.2 (Or.inl hobject)
  | cons first before ih =>
    rw [objects_cons] at hbefore
    obtain ⟨middle, w₂, hfirst, hrest⟩ := Action.run_bind_eq_ok.1 hbefore
    rw [List.cons_append, objects_cons]
    exact Action.run_bind_eq_error.2 (Or.inr ⟨middle, w₂, hfirst, ih hrest⟩)

theorem directory_ok (h : (directory storage base dir localDir).run w = (.ok report, w')) :
    ∃ listed w₁ w₂ log, (listing storage base dir localDir).run w = (.ok listed, w₁) ∧
      (objects storage base dir localDir ⟨[], []⟩ listed).run w₁ = (.ok report, w₂) ∧
      w' = { w₂ with machine := { w₂.machine with log } } := by
  unfold directory at h
  obtain ⟨listed, w₁, hlisting, h⟩ := Action.run_bind_eq_ok.1 h
  obtain ⟨middle, w₂, hobjects, h⟩ := Action.run_bind_eq_ok.1 h
  rw [Action.run_bind, Action.run_note] at h
  cases h
  exact ⟨listed, w₁, w₂, _, hlisting, hobjects, rfl⟩

/-- The objects that are listed are synced after the directory is made and before the end is
    noted. -/
theorem directory_of_listing {w₁ w₂ : World σ}
    (hlisting : (listing storage base dir localDir).run w = (.ok listed, w₁))
    (hobjects : (objects storage base dir localDir ⟨[], []⟩ listed).run w₁ = (.ok report, w₂)) :
    ∃ log, (directory storage base dir localDir).run w =
      (.ok report, { w₂ with machine := { w₂.machine with log } }) := by
  rw [directory, Action.run_bind, hlisting]
  simp only
  rw [Action.run_bind, hobjects]
  simp only
  rw [Action.run_bind, Action.run_note]
  exact ⟨_, rfl⟩

theorem directory_error (h : (directory storage base dir localDir).run w = (.error e, w')) :
    (listing storage base dir localDir).run w = (.error e, w') ∨
      ∃ listed w₁, (listing storage base dir localDir).run w = (.ok listed, w₁) ∧
        (objects storage base dir localDir ⟨[], []⟩ listed).run w₁ = (.error e, w') := by
  unfold directory at h
  rcases Action.run_bind_eq_error.1 h with hlisting | ⟨listed, w₁, hlisting, h⟩
  · exact Or.inl hlisting
  rcases Action.run_bind_eq_error.1 h with hobjects | ⟨_, w₂, _, h⟩
  · exact Or.inr ⟨listed, w₁, hlisting, hobjects⟩
  · rw [Action.run_bind, Action.run_note] at h
    cases h

theorem directory_of_error {w₁ : World σ}
    (hlisting : (listing storage base dir localDir).run w = (.ok listed, w₁))
    (hobjects : (objects storage base dir localDir ⟨[], []⟩ listed).run w₁ = (.error e, w')) :
    (directory storage base dir localDir).run w = (.error e, w') := by
  rw [directory]
  refine Action.run_bind_eq_error.2 (Or.inr ⟨listed, w₁, hlisting, ?_⟩)
  exact Action.run_bind_eq_error.2 (Or.inl hobjects)

theorem listing_ok (h : (listing storage base dir localDir).run w = (.ok listed, w')) :
    ∃ log tree, (Disk.makeDirectories w.machine.workDir localDir).run w.machine.tree =
        (.ok (), tree) ∧
      (storage.list base dir).run ⟨{ w.machine with tree, log }, w.remote⟩ = (.ok listed, w') := by
  rw [listing, Action.run_bind, Action.run_note] at h
  simp only at h
  obtain ⟨_, _, hmade, h⟩ := Action.run_bind_eq_ok.1 h
  obtain ⟨tree, hmake, rfl⟩ := Action.run_onDisk_eq_ok.1 hmade
  exact ⟨_, tree, hmake, h⟩

theorem listing_error (h : (listing storage base dir localDir).run w = (.error e, w')) :
    ∃ log result tree, (Disk.makeDirectories w.machine.workDir localDir).run w.machine.tree =
        (result, tree) ∧
      ((w' = ⟨{ w.machine with tree, log }, w.remote⟩ ∧ IsLocal e) ∨
        (storage.list base dir).run ⟨{ w.machine with tree, log }, w.remote⟩ = (.error e, w')) := by
  rw [listing, Action.run_bind, Action.run_note] at h
  simp only at h
  rcases Action.run_bind_eq_error.1 h with hmade | ⟨_, _, hmade, h⟩
  · obtain ⟨cause, tree, hmake, rfl, rfl⟩ := Action.run_onDisk_eq_error.1 hmade
    exact ⟨_, _, tree, hmake, Or.inl ⟨rfl, trivial⟩⟩
  · obtain ⟨tree, hmake, rfl⟩ := Action.run_onDisk_eq_ok.1 hmade
    exact ⟨_, _, tree, hmake, Or.inr h⟩

/-- The places of the local directory and of those above it, which are made when they are missing. -/
def IsOnWay (t : FileTree) (here : Location) (localDir : String) (place : Location) : Prop :=
  ∃ above ∈ Disk.ancestry (localDir.length + 1) localDir, t.NamesDirectory here above place

theorem IsOnWay.mono {t t' : FileTree} {here place : Location} (h : IsOnWay t here localDir place)
    (hkeeps : t.Keeps t') : IsOnWay t' here localDir place := by
  obtain ⟨above, hmem, hnames⟩ := h
  exact ⟨above, hmem, hnames.mono hkeeps⟩

/-- When a listing succeeds the local directory is there, and at most directories on the way to it
    are new. -/
theorem isReady_of_listing (hstorage : storage.WritesOnlyGiven)
    (hwork : w.machine.tree.get? w.machine.workDir = some .directory)
    (h : (listing storage base dir localDir).run w = (.ok listed, w')) :
    ∃ root, IsReady w.machine.workDir root localDir w'.machine ∧
      w.machine.tree.Grows (IsOnWay w'.machine.tree w.machine.workDir localDir)
        w'.machine.tree := by
  obtain ⟨log, tree, hmake, hlist⟩ := listing_ok h
  obtain ⟨root, hnames⟩ := Disk.namesDirectory_of_makeWithAncestors hwork hmake
  have hgrows := Disk.makeWithAncestors_grows hwork hmake
  have hmade : IsReady w.machine.workDir root localDir { w.machine with tree, log } :=
    ⟨rfl, hgrows.keeps _ _ hwork, hnames⟩
  have hsame := hstorage.list hlist
  refine ⟨root, hmade.of_sameFiles hsame, ?_⟩
  intro place
  rw [hsame.tree place]
  refine (hgrows place).imp_right fun ⟨hfree, hnew, hway⟩ => ⟨hfree, hnew, ?_⟩
  exact IsOnWay.mono hway hsame.tree.keeps

/-- When a listing fails at most directories on the way to the local one are new. -/
theorem grows_of_listing_error (hfails : storage.FailsInGiven)
    (hwork : w.machine.tree.get? w.machine.workDir = some .directory)
    (h : (listing storage base dir localDir).run w = (.error e, w')) :
    w.machine.tree.Grows (IsOnWay w'.machine.tree w.machine.workDir localDir) w'.machine.tree ∧
      w'.machine.workDir = w.machine.workDir := by
  obtain ⟨log, result, tree, hmake, ⟨rfl, _⟩ | hlist⟩ := listing_error h
  · exact ⟨Disk.makeWithAncestors_grows hwork hmake, rfl⟩
  · have hsame := hfails.list hlist
    refine ⟨fun place => ?_, hsame.workDir⟩
    rw [hsame.tree place]
    refine (Disk.makeWithAncestors_grows hwork hmake place).imp_right ?_
    rintro ⟨hfree, hnew, hway⟩
    exact ⟨hfree, hnew, IsOnWay.mono hway hsame.tree.keeps⟩

/-- If the directory can be made and the storage lists it whatever is in the log, there is a
    listing. -/
theorem listing_of_list {tree : FileTree}
    (hmake : (Disk.makeDirectories w.machine.workDir localDir).run w.machine.tree = (.ok (), tree))
    (hlist : ∀ log, ∃ w', (storage.list base dir).run ⟨{ w.machine with tree, log }, w.remote⟩ =
      (.ok listed, w')) :
    ∃ w', (listing storage base dir localDir).run w = (.ok listed, w') := by
  obtain ⟨w', hw'⟩ := hlist (w.machine.log ++ [⟨.info, .sync, "Syncing directory from storage",
    [("source", .text (Storage.joinUrl base dir)), ("dest", .text localDir)], w.machine.span⟩])
  refine ⟨w', ?_⟩
  rw [listing, Action.run_bind, Action.run_note]
  simp only
  rw [Action.run_bind_eq_ok]
  exact ⟨(), _, Action.run_onDisk_eq_ok.2 ⟨tree, hmake, rfl⟩, hw'⟩

section Remote

variable {γ : Type} {view : σ → γ}

theorem orDiscard_keepsRemote {α : Type} {action : Action σ StorageError α}
    (h : action.KeepsRemote view) : (orDiscard path action).KeepsRemote view := by
  apply Action.KeepsRemote.bind (.outcome h)
  intro result
  cases result with
  | ok value => exact .pure value
  | error e => exact .bind (.bind (.outcome (.onDisk _ _)) fun _ => .pure ()) fun _ => .throw e

/-- What downloads do not change of the world outside the machine, syncing an object does not
    change. -/
theorem object_keepsRemote
    (hdownload : ∀ path, (storage.download base dir object path).KeepsRemote view) :
    (Sync.object storage base dir localDir report object).KeepsRemote view := by
  refine .bind (.lift _) fun destination => .bind .machine fun m => .bind (.lift _) fun current => ?_
  cases current with
  | true => exact .bind (.note _ _ _ _) fun _ => .pure _
  | false =>
    refine .bind ?_ fun _ => .bind (.note _ _ _ _) fun _ => .pure _
    cases hparent : Path.parent? destination with
    | none =>
      simp only [fetch, hparent]
      exact .throw _
    | some parent =>
      simp only [fetch, hparent]
      exact .bind (.onDisk _ _) fun _ => .bind .machine fun m => .bind (.onDisk _ _) fun staging =>
        .bind (orDiscard_keepsRemote (hdownload staging)) fun _ =>
          .bind (orDiscard_keepsRemote (.onDisk _ _)) fun _ => .onDisk _ _

theorem listing_keepsRemote (hlist : (storage.list base dir).KeepsRemote view) :
    (listing storage base dir localDir).KeepsRemote view :=
  .bind (.note _ _ _ _) fun _ => .bind (.onDisk _ _) fun _ => hlist

end Remote

end StepRunner.Sync
