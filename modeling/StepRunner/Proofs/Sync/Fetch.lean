import StepRunner.Proofs.FileTree.Temporary
import StepRunner.Proofs.Storage.Contract
import StepRunner.Proofs.Sync.Destination

namespace StepRunner.Sync

open FileTree

variable {σ α : Type} {storage : Storage σ} {base dir localDir destination path : String}
  {object : RemoteObject} {w w' : World σ} {e : StorageError} {names : List String}
  {t t' : FileTree} {here place : Location} {value : α}

theorem orDiscard_eq_ok {action : Action σ StorageError α} :
    (orDiscard path action).run w = (.ok value, w') ↔ action.run w = (.ok value, w') := by
  rw [orDiscard, Action.run_bind, Action.run_outcome]
  simp only
  rcases action.run w with ⟨e | value, after⟩
  · constructor
    · intro h
      rw [Action.run_bind, discard] at h
      cases h
    · nofun
  · rfl

theorem orDiscard_eq_error {action : Action σ StorageError α} :
    (orDiscard path action).run w = (.error e, w') ↔ ∃ after, action.run w = (.error e, after) ∧
      w' = { after with machine := { after.machine with
        tree := ((Disk.removeFile after.machine.workDir path).run after.machine.tree).2 } } := by
  rw [orDiscard, Action.run_bind, Action.run_outcome]
  simp only
  rcases action.run w with ⟨cause | value, after⟩
  · constructor
    · intro h
      rw [Action.run_bind, discard] at h
      cases h
      exact ⟨after, rfl, rfl⟩
    · rintro ⟨_, heq, rfl⟩
      cases heq
      rfl
  · exact ⟨nofun, by rintro ⟨_, heq, _⟩; cases heq⟩

/-- Discarding what was put at a vacant place brings the tree back. -/
theorem same_of_discard (hfind : t.find here false path = .ok (.vacant place))
    (hoff : SameOff place t t') (hleft : t'.get? place ≠ some .directory)
    (hhere : t.get? here = some .directory) :
    t.Same ((Disk.removeFile here path).run t').2 := by
  have htarget := find_eq_targetAt hfind hhere
  obtain ⟨_, _, _, hleads⟩ := find_eq_ok_iff.1 hfind
  have hfree : t.get? place = none := hleads.get?_place (get?_wayStart hhere path)
  have hfound : t'.find here false path = .ok (t'.targetAt place) :=
    find_of_sameOff htarget (by simp [hfree]) hoff (not_isOpen_of_none hfree) (Or.inl rfl)
  cases hentry : t'.get? place with
  | none =>
    rw [targetAt, hentry] at hfound
    rw [Disk.removeFile_run, hfound]
    intro other
    by_cases hother : other = place
    · rw [hother, hfree, hentry]
    · exact hoff other hother
  | some entry =>
    rw [targetAt, hentry] at hfound
    rw [hentry, ne_eq, Option.some.injEq] at hleft
    obtain ⟨cleaned, hrun, hsame, hgone⟩ := Disk.removeFile_ok hfound hleft
      (hoff here (by rintro rfl; rw [hfree] at hhere; cases hhere) ▸ hhere)
    rw [hrun]
    intro other
    by_cases hother : other = place
    · rw [hother, hfree, hgone]
    · exact (hsame other hother).trans (hoff other hother)

/-- `Lands grown t' here destination place new` says that `destination` led to `place` in `grown`
    and that `t'` differs from it by the file `new` there. -/
structure Lands (grown t' : FileTree) (here : Location) (destination : String) (place : Location)
    (new : FileData) : Prop where
  find_eq : grown.find here false destination = .ok (grown.targetAt place)
  not_directory : grown.get? place ≠ some .directory
  not_isOpen : ¬grown.IsOpen place
  off : SameOff place grown t'
  get?_eq : t'.get? place = some (.file new)

/-- The file is found where it has landed. -/
theorem Lands.stat_eq {new : FileData} (h : Lands t t' here destination place new) :
    t'.stat here destination = .ok (place, .file new) := by
  have hfind : t'.find here true destination = .ok (t'.targetAt place) :=
    find_of_sameOff h.find_eq h.not_directory h.off h.not_isOpen (Or.inr (by simp [h.get?_eq]))
  rw [stat_eq_ok_iff, hfind, targetAt, h.get?_eq]

/-- Directories stay where they are when a file lands. -/
theorem Lands.get?_directory {new : FileData} (h : Lands t t' here destination place new)
    {dir : Location} (hdir : t.get? dir = some .directory) : t'.get? dir = some .directory := by
  rw [h.off dir (by rintro rfl; exact h.not_directory hdir), hdir]

theorem Lands.namesDirectory {new : FileData} (h : Lands t t' here destination place new)
    {dir : Location} (hdir : t.NamesDirectory here path dir) : t'.NamesDirectory here path dir :=
  hdir.of_sameOff h.off h.not_isOpen

/-- The file may be changed once more where it has landed. -/
theorem Lands.change {t'' : FileTree} {new newer : FileData}
    (h : Lands t t' here destination place new) (hoff : SameOff place t' t'')
    (hnewer : t''.get? place = some (.file newer)) : Lands t t'' here destination place newer :=
  { h with off := h.off.trans hoff, get?_eq := hnewer }

/-- A file that was staged at a vacant place lands when it is moved to the destination. -/
theorem lands_of_renameFile {grown staged moved : FileTree} {staging : String} {origin : Location}
    {new : FileData} {updated : Instant} (hready : Readies t grown here destination)
    (hstale : IsStale t here destination updated) (hhere : grown.get? here = some .directory)
    (hfree : grown.find here false staging = .ok (.vacant origin))
    (hoff : SameOff origin grown staged) (hstaged : staged.get? origin = some (.file new))
    (hrename : (Disk.renameFile here staging destination).run staged = (.ok (), moved)) :
    ∃ place, Lands grown moved here destination place new := by
  have hnone : grown.get? origin = none := by
    obtain ⟨_, _, _, hleads⟩ := find_eq_ok_iff.1 hfree
    exact hleads.get?_place (get?_wayStart hhere staging)
  have hhere' : staged.get? here = some .directory := by
    rw [hoff here (by rintro rfl; rw [hnone] at hhere; cases hhere), hhere]
  obtain ⟨origin', file, place, hsource, hdest, hentry, hnew, hother⟩ :=
    Disk.renameFile_ok hrename hhere'
  rw [find_of_vacant hfree hoff hstaged hhere (Or.inl rfl)] at hsource
  cases hsource
  have hentry' : grown.get? place ≠ some .directory := by
    by_cases heq : place = origin
    · simp [heq, hnone]
    · rwa [← hoff place heq]
  have hfind : grown.find here false destination = .ok (grown.targetAt place) :=
    find_of_sameOff hdest hentry hoff.symm (not_isOpen_of_file hstaged) (Or.inl rfl)
  refine ⟨place, hfind, hentry', hready.not_isOpen hstale hfind hentry', fun other hne => ?_, hnew⟩
  rw [hother other hne]
  split
  · next heq => rw [heq, hnone]
  · next hneq => exact hoff other hneq

/-- `Downloads storage base dir object w w' written` says that between `w` and `w'`, from which its
    own worlds differ by file tree and log alone, a download has written `written` to an empty
    file. -/
def Downloads (storage : Storage σ) (base dir : String) (object : RemoteObject) (w w' : World σ)
    (written : FileData) : Prop :=
  ∃ path place tree tree' log,
    tree.stat w.machine.workDir path = .ok (place, .file ⟨[], w.machine.now, false⟩) ∧
    (storage.download base dir object path).run ⟨{ w.machine with tree }, w.remote⟩ =
      (.ok (), ⟨{ w'.machine with tree := tree', log }, w'.remote⟩) ∧
    tree'.get? place = some (.file written)

theorem Downloads.gives {written : FileData}
    (h : Downloads storage base dir object w w' written) :
    storage.Gives base dir object written.contents := by
  obtain ⟨path, place, tree, _, _, hstat, hrun, hwritten⟩ := h
  have hgiven : Machine.LeadsToFile { w.machine with tree } path place := ⟨_, hstat⟩
  exact ⟨path, place, written, _, _, hgiven, hrun, hwritten, rfl⟩

/-- Whether a temporary file beside a destination can have one of some names. -/
def CanStage (here : Location) (temporaryNames : List String) (destination : String) : Prop :=
  ∃ parent, Path.parent? destination = some parent ∧
    ∃ name ∈ temporaryNames, IsUsable (Path.join (Path.join (pathTo here) parent) name)

/-- A fetch that succeeds makes the directories above the destination, and what was downloaded
    lands there with the object's time. -/
theorem fetch_ok (hstorage : storage.WritesOnlyGiven)
    (hwork : w.machine.tree.get? w.machine.workDir = some .directory)
    (hbelow : LiesBelow localDir destination names) {root : Location}
    (hbase : w.machine.tree.NamesDirectory w.machine.workDir localDir root)
    (hstale : IsStale w.machine.tree w.machine.workDir destination object.updated.toInstant)
    (h : (fetch storage base dir object destination).run w = (.ok (), w')) :
    ∃ parent grown place written, Path.parent? destination = some parent ∧
      (Disk.makeDirectories w.machine.workDir parent).run w.machine.tree = (.ok (), grown) ∧
      Lands grown w'.machine.tree w.machine.workDir destination place
        { written with modified := object.updated.toInstant } ∧
      Downloads storage base dir object w w' written ∧
      CanStage w.machine.workDir w.machine.temporaryNames destination ∧
      w'.machine.workDir = w.machine.workDir := by
  obtain ⟨parent, hparent⟩ := hbelow.exists_parent
  simp only [fetch, hparent] at h
  obtain ⟨_, _, hmade, h⟩ := Action.run_bind_eq_ok.1 h
  obtain ⟨grown, hmake, rfl⟩ := Action.run_onDisk_eq_ok.1 hmade
  rw [Action.run_bind, Action.run_machine] at h
  simp only at h
  obtain ⟨staging, _, hstaged, h⟩ := Action.run_bind_eq_ok.1 h
  obtain ⟨staged, htemp, rfl⟩ := Action.run_onDisk_eq_ok.1 hstaged
  obtain ⟨_, w₁, hdownload, h⟩ := Action.run_bind_eq_ok.1 h
  rw [orDiscard_eq_ok] at hdownload
  obtain ⟨_, _, hrenamed, h⟩ := Action.run_bind_eq_ok.1 h
  rw [orDiscard_eq_ok] at hrenamed
  obtain ⟨moved, hrename, rfl⟩ := Action.run_onDisk_eq_ok.1 hrenamed
  obtain ⟨final, hset, rfl⟩ := Action.run_onDisk_eq_ok.1 h
  have hgrows := Disk.makeWithAncestors_grows hwork hmake
  have hready : Readies w.machine.tree grown w.machine.workDir destination :=
    hbelow.makeDirectories_cases hbase hstale.1 hwork hparent hmake
  have hhere := hgrows.keeps _ _ hwork
  obtain ⟨name, origin, hname, hstaging, hfree, _, hoff, hstat⟩ :=
    Disk.makeTemporary_ok htemp hhere
  have hgiven : Machine.LeadsToFile { w.machine with tree := staged } staging origin := ⟨_, hstat⟩
  have husable : IsUsable (Path.join (Path.join (pathTo w.machine.workDir) parent) name) :=
    hstaging ▸ (find_eq_ok_iff.1 hfree).1
  obtain ⟨⟨hdir, hwrites⟩, written, hwritten⟩ := hstorage.download hgiven hdownload
  simp only at hdir hwrites hrename hset
  rw [hdir] at hrename hset
  obtain ⟨place, hlands⟩ :=
    lands_of_renameFile hready hstale hhere hfree (hoff.trans hwrites) hwritten hrename
  obtain ⟨stamped, hrun, hsame, hnew⟩ :=
    Disk.setModified_ok hlands.stat_eq object.updated.toInstant
  rw [hset] at hrun
  cases hrun
  exact ⟨parent, grown, place, written, hparent, hmake, hlands.change hsame hnew,
    ⟨staging, origin, staged, w₁.machine.tree, w₁.machine.log, hstat, hdownload, hwritten⟩,
    ⟨parent, hparent, name, hname, husable⟩, hdir⟩

/-- A fetch that fails makes some of the directories above the destination and nothing else. -/
theorem fetch_error (hstorage : storage.WritesOnlyGiven) (hfails : storage.FailsInGiven)
    (hwork : w.machine.tree.get? w.machine.workDir = some .directory)
    (hbelow : LiesBelow localDir destination names) {root : Location}
    (hbase : w.machine.tree.NamesDirectory w.machine.workDir localDir root)
    (hstale : IsStale w.machine.tree w.machine.workDir destination object.updated.toInstant)
    (h : (fetch storage base dir object destination).run w = (.error e, w')) :
    ∃ parent result grown, Path.parent? destination = some parent ∧
      (Disk.makeDirectories w.machine.workDir parent).run w.machine.tree = (result, grown) ∧
      grown.Same w'.machine.tree ∧ w'.machine.workDir = w.machine.workDir := by
  obtain ⟨parent, hparent⟩ := hbelow.exists_parent
  simp only [fetch, hparent] at h
  rcases Action.run_bind_eq_error.1 h with hmade | ⟨_, _, hmade, h⟩
  · obtain ⟨cause, grown, hmake, _, rfl⟩ := Action.run_onDisk_eq_error.1 hmade
    exact ⟨parent, _, grown, hparent, hmake, .refl _, rfl⟩
  obtain ⟨grown, hmake, rfl⟩ := Action.run_onDisk_eq_ok.1 hmade
  refine ⟨parent, _, grown, hparent, hmake, ?_⟩
  have hhere := (Disk.makeWithAncestors_grows hwork hmake).keeps _ _ hwork
  have hready : Readies w.machine.tree grown w.machine.workDir destination :=
    hbelow.makeDirectories_cases hbase hstale.1 hwork hparent hmake
  rw [Action.run_bind, Action.run_machine] at h
  simp only at h
  rcases Action.run_bind_eq_error.1 h with hstaged | ⟨staging, _, hstaged, h⟩
  · obtain ⟨cause, staged, htemp, _, rfl⟩ := Action.run_onDisk_eq_error.1 hstaged
    obtain rfl := Disk.makeTemporary_error htemp
    exact ⟨.refl _, rfl⟩
  obtain ⟨staged, htemp, rfl⟩ := Action.run_onDisk_eq_ok.1 hstaged
  obtain ⟨_, origin, _, _, hfree, _, hoff, hstat⟩ := Disk.makeTemporary_ok htemp hhere
  have hgiven : Machine.LeadsToFile { w.machine with tree := staged } staging origin := ⟨_, hstat⟩
  rcases Action.run_bind_eq_error.1 h with hdiscard | ⟨_, w₁, hdownload, h⟩
  · obtain ⟨w₁, hdownload, rfl⟩ := orDiscard_eq_error.1 hdiscard
    obtain ⟨⟨hdir, hwrites⟩, hleft⟩ := hfails.download hgiven hdownload
    simp only at hdir hwrites ⊢
    rw [hdir]
    exact ⟨same_of_discard hfree (hoff.trans hwrites) hleft hhere, rfl⟩
  rw [orDiscard_eq_ok] at hdownload
  obtain ⟨⟨hdir, hwrites⟩, written, hwritten⟩ := hstorage.download hgiven hdownload
  simp only at hdir hwrites
  rcases Action.run_bind_eq_error.1 h with hdiscard | ⟨_, _, hrenamed, h⟩
  · obtain ⟨_, hrenamed, rfl⟩ := orDiscard_eq_error.1 hdiscard
    obtain ⟨cause, moved, hrename, _, rfl⟩ := Action.run_onDisk_eq_error.1 hrenamed
    obtain rfl := Disk.renameFile_error hrename
    simp only
    rw [hdir]
    exact ⟨same_of_discard hfree (hoff.trans hwrites) (by simp [hwritten]) hhere, rfl⟩
  rw [orDiscard_eq_ok] at hrenamed
  obtain ⟨moved, hrename, rfl⟩ := Action.run_onDisk_eq_ok.1 hrenamed
  obtain ⟨cause, final, hset, _, rfl⟩ := Action.run_onDisk_eq_error.1 h
  simp only at hrename hset
  rw [hdir] at hrename hset
  -- The time of the file that was just moved to its place can always be set.
  obtain ⟨place, hlands⟩ :=
    lands_of_renameFile hready hstale hhere hfree (hoff.trans hwrites) hwritten hrename
  obtain ⟨stamped, hrun, _⟩ := Disk.setModified_ok hlands.stat_eq object.updated.toInstant
  rw [hset] at hrun
  cases hrun

/-- Whether an error comes from the disk or from a path that is refused, which needs no storage. -/
def IsLocal : StorageError → Prop
  | .io _ | .invalidObjectPath _ => True
  | _ => False

/-- A fetch fails on the disk, or as the download does. -/
theorem isLocal_or_download_of_fetch
    (h : (fetch storage base dir object destination).run w = (.error e, w')) :
    IsLocal e ∨ ∃ staging machine after,
      (storage.download base dir object staging).run ⟨machine, w.remote⟩ = (.error e, after) := by
  cases hparent : Path.parent? destination with
  | none =>
    simp only [fetch, hparent] at h
    cases h
    exact Or.inl trivial
  | some parent =>
    simp only [fetch, hparent] at h
    rcases Action.run_bind_eq_error.1 h with hmade | ⟨_, _, hmade, h⟩
    · obtain ⟨cause, _, _, rfl, _⟩ := Action.run_onDisk_eq_error.1 hmade
      exact Or.inl trivial
    obtain ⟨grown, _, rfl⟩ := Action.run_onDisk_eq_ok.1 hmade
    rw [Action.run_bind, Action.run_machine] at h
    simp only at h
    rcases Action.run_bind_eq_error.1 h with hstaged | ⟨staging, _, hstaged, h⟩
    · obtain ⟨cause, _, _, rfl, _⟩ := Action.run_onDisk_eq_error.1 hstaged
      exact Or.inl trivial
    obtain ⟨staged, _, rfl⟩ := Action.run_onDisk_eq_ok.1 hstaged
    rcases Action.run_bind_eq_error.1 h with hdiscard | ⟨_, _, _, h⟩
    · obtain ⟨after, hdownload, _⟩ := orDiscard_eq_error.1 hdiscard
      exact Or.inr ⟨staging, _, after, hdownload⟩
    rcases Action.run_bind_eq_error.1 h with hdiscard | ⟨_, _, _, h⟩
    · obtain ⟨_, hrenamed, _⟩ := orDiscard_eq_error.1 hdiscard
      obtain ⟨cause, _, _, rfl, _⟩ := Action.run_onDisk_eq_error.1 hrenamed
      exact Or.inl trivial
    · obtain ⟨cause, _, _, rfl, _⟩ := Action.run_onDisk_eq_error.1 h
      exact Or.inl trivial

end StepRunner.Sync
