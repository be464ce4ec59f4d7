import StepRunner.Proofs.Sync.Fetch

namespace StepRunner.Sync

open FileTree

variable {σ : Type} {storage : Storage σ} {base dir localDir destination path : String}
  {object : RemoteObject} {w w' : World σ} {e : StorageError} {report report' : SyncReport}
  {t t' : FileTree} {here root place : Location} {m m' : Machine}

/-- A machine on which the local directory is there: `localDir`, as seen from the working directory
    `here`, names `root`. -/
structure IsReady (here root : Location) (localDir : String) (m : Machine) : Prop where
  workDir : m.workDir = here
  isDirectory : m.tree.get? here = some .directory
  names : m.tree.NamesDirectory here localDir root

namespace IsReady

variable {allowed : Location → Prop} {new : FileData}

theorem of_grows (h : IsReady here root localDir m) (hgrows : m.tree.Grows allowed m'.tree)
    (hwork : m'.workDir = m.workDir) : IsReady here root localDir m' :=
  ⟨hwork.trans h.workDir, hgrows.keeps _ _ h.isDirectory, h.names.mono hgrows.keeps⟩

theorem of_sameFiles (h : IsReady here root localDir m) (hsame : m.SameFiles m') :
    IsReady here root localDir m' := by
  have hgrows : m.tree.Grows (fun _ => False) m'.tree := hsame.tree.grows
  exact h.of_grows hgrows hsame.workDir

theorem of_lands (h : IsReady here root localDir m) {grown : FileTree}
    (hgrows : m.tree.Grows allowed grown) (hlands : Lands grown m'.tree here destination place new)
    (hwork : m'.workDir = m.workDir) : IsReady here root localDir m' :=
  ⟨hwork.trans h.workDir, hlands.get?_directory (hgrows.keeps _ _ h.isDirectory),
    hlands.namesDirectory (h.names.mono hgrows.keeps)⟩

end IsReady

/-- The places of the directories above a destination, those that are made when they are missing. -/
def IsAbove (t : FileTree) (here : Location) (path : String) (place : Location) : Prop :=
  ∃ parent, Path.parent? path = some parent ∧
    ∃ above ∈ Disk.ancestry (parent.length + 1) parent, t.NamesDirectory here above place

/-- What an object that is synced does: nothing if its copy is current, and otherwise a fetch. -/
theorem object_ok {report report' : SyncReport}
    (h : (Sync.object storage base dir localDir report object).run w = (.ok report', w')) :
    ∃ destination, localPath localDir object.relativePath = .ok destination ∧
      ((isCurrent w.machine destination object = .ok true ∧
        report' = { report with upToDate := report.upToDate ++ [object.relativePath] } ∧
        ∃ log, w' = { w with machine := { w.machine with log } }) ∨
      (isCurrent w.machine destination object = .ok false ∧
        report' = { report with downloaded := report.downloaded ++ [object.relativePath] } ∧
        ∃ log w₁, (fetch storage base dir object destination).run w = (.ok (), w₁) ∧
          w' = { w₁ with machine := { w₁.machine with log } })) := by
  unfold Sync.object at h
  obtain ⟨destination, _, hpath, h⟩ := Action.run_bind_eq_ok.1 h
  rw [Action.run_lift] at hpath
  injection hpath with hpath hsame
  subst hsame
  refine ⟨destination, hpath, ?_⟩
  rw [Action.run_bind, Action.run_machine] at h
  simp only at h
  obtain ⟨current, _, hcurrent, h⟩ := Action.run_bind_eq_ok.1 h
  rw [Action.run_lift] at hcurrent
  injection hcurrent with hcurrent hsame
  subst hsame
  cases current with
  | true =>
    left
    rw [if_pos rfl, Action.run_bind, Action.run_note] at h
    cases h
    exact ⟨hcurrent, rfl, _, rfl⟩
  | false =>
    right
    rw [if_neg (by simp)] at h
    obtain ⟨_, w₁, hfetch, h⟩ := Action.run_bind_eq_ok.1 h
    rw [Action.run_bind, Action.run_note] at h
    cases h
    exact ⟨hcurrent, rfl, _, w₁, hfetch, rfl⟩

variable (storage base dir report) in
theorem object_of_current (hpath : localPath localDir object.relativePath = .ok destination)
    (hcurrent : isCurrent w.machine destination object = .ok true) :
    ∃ log, (Sync.object storage base dir localDir report object).run w =
      (.ok { report with upToDate := report.upToDate ++ [object.relativePath] },
        { w with machine := { w.machine with log } }) := by
  rw [Sync.object, Action.run_bind, Action.run_lift, hpath]
  simp only
  rw [Action.run_bind, Action.run_machine]
  simp only
  rw [Action.run_bind, Action.run_lift, hcurrent]
  simp only [if_true]
  rw [Action.run_bind, Action.run_note]
  exact ⟨_, rfl⟩

variable (report) in
theorem object_of_fetch {w₁ : World σ}
    (hpath : localPath localDir object.relativePath = .ok destination)
    (hstale : isCurrent w.machine destination object = .ok false)
    (hfetch : (fetch storage base dir object destination).run w = (.ok (), w₁)) :
    ∃ log, (Sync.object storage base dir localDir report object).run w =
      (.ok { report with downloaded := report.downloaded ++ [object.relativePath] },
        { w₁ with machine := { w₁.machine with log } }) := by
  rw [Sync.object, Action.run_bind, Action.run_lift, hpath]
  simp only
  rw [Action.run_bind, Action.run_machine]
  simp only
  rw [Action.run_bind, Action.run_lift, hstale]
  simp only [Bool.false_eq_true, if_false]
  rw [Action.run_bind, hfetch]
  simp only
  rw [Action.run_bind, Action.run_note]
  exact ⟨_, rfl⟩

theorem isLocal_of_localPath (h : localPath localDir path = .error e) : IsLocal e := by
  unfold localPath at h
  dsimp only at h
  split at h
  · cases h
  · cases h
    trivial

theorem isLocal_of_isCurrent (h : isCurrent m destination object = .error e) : IsLocal e := by
  unfold isCurrent at h
  split at h
  · cases h
  · cases h
    trivial
  · cases h
    trivial
  · split at h
    · cases h
    · cases h
      trivial

/-- An object that cannot be synced was refused before anything was done, or its fetch failed. -/
theorem object_error {report : SyncReport}
    (h : (Sync.object storage base dir localDir report object).run w = (.error e, w')) :
    (w' = w ∧ IsLocal e) ∨ ∃ destination, localPath localDir object.relativePath = .ok destination ∧
      isCurrent w.machine destination object = .ok false ∧
      (fetch storage base dir object destination).run w = (.error e, w') := by
  unfold Sync.object at h
  rcases Action.run_bind_eq_error.1 h with hpath | ⟨destination, _, hpath, h⟩
  · rw [Action.run_lift] at hpath
    injection hpath with hpath hsame
    exact Or.inl ⟨hsame.symm, isLocal_of_localPath hpath⟩
  rw [Action.run_lift] at hpath
  injection hpath with hpath hsame
  subst hsame
  rw [Action.run_bind, Action.run_machine] at h
  simp only at h
  rcases Action.run_bind_eq_error.1 h with hcurrent | ⟨current, _, hcurrent, h⟩
  · rw [Action.run_lift] at hcurrent
    injection hcurrent with hcurrent hsame
    exact Or.inl ⟨hsame.symm, isLocal_of_isCurrent hcurrent⟩
  rw [Action.run_lift] at hcurrent
  injection hcurrent with hcurrent hsame
  subst hsame
  cases current with
  | true =>
    rw [if_pos rfl, Action.run_bind, Action.run_note] at h
    cases h
  | false =>
    rw [if_neg (by simp)] at h
    rcases Action.run_bind_eq_error.1 h with hfetch | ⟨_, _, _, h⟩
    · exact Or.inr ⟨destination, hpath, hcurrent, hfetch⟩
    · rw [Action.run_bind, Action.run_note] at h
      cases h

/-- An object fails on the disk or because its path is refused, or as its download does. -/
theorem isLocal_or_download_of_object
    (h : (Sync.object storage base dir localDir report object).run w = (.error e, w')) :
    IsLocal e ∨ ∃ destination, localPath localDir object.relativePath = .ok destination ∧
      ∃ staging machine after,
        (storage.download base dir object staging).run ⟨machine, w.remote⟩ = (.error e, after) := by
  rcases object_error h with ⟨_, hlocal⟩ | ⟨destination, hpath, _, hfetch⟩
  · exact Or.inl hlocal
  · exact (isLocal_or_download_of_fetch hfetch).imp_right fun hdownload =>
      ⟨destination, hpath, hdownload⟩

/-- What an object that was synced did to the files of a machine on which the local directory is
    there: nothing, since its copy was current, or what it downloaded has landed. -/
theorem object_ok_cases (hstorage : storage.WritesOnlyGiven)
    (hready : IsReady here root localDir w.machine)
    (h : (Sync.object storage base dir localDir report object).run w = (.ok report', w')) :
    IsReady here root localDir w'.machine ∧
    ∃ destination, localPath localDir object.relativePath = .ok destination ∧
      ((isCurrent w.machine destination object = .ok true ∧
        report' = { report with upToDate := report.upToDate ++ [object.relativePath] } ∧
        ∃ log, w' = { w with machine := { w.machine with log } }) ∨
      ∃ grown place written,
        IsStale w.machine.tree here destination object.updated.toInstant ∧
        Readies w.machine.tree grown here destination ∧
        w.machine.tree.Grows (IsAbove grown here destination) grown ∧
        Lands grown w'.machine.tree here destination place
          { written with modified := object.updated.toInstant } ∧
        Downloads storage base dir object w w' written ∧
        CanStage here w.machine.temporaryNames destination ∧
        report' = { report with downloaded := report.downloaded ++ [object.relativePath] }) := by
  obtain ⟨destination, hpath, ⟨hcurrent, hreport, log, rfl⟩ |
    ⟨hstale, hreport, log, w₁, hfetch, rfl⟩⟩ := object_ok h
  · exact ⟨hready.of_sameFiles ⟨rfl, .refl _⟩, destination, hpath,
      Or.inl ⟨hcurrent, hreport, log, rfl⟩⟩
  obtain ⟨rfl, hhere, hbase⟩ := hready
  have hbelow := liesBelow_of_localPath hpath
  have hstale := isStale_of_isCurrent hstale hbelow.ne_empty
  obtain ⟨parent, grown, place, written, hparent, hmake, hlands, hdownloads, hstage, hwork⟩ :=
    fetch_ok hstorage hhere hbelow hbase hstale hfetch
  have hgrows : w.machine.tree.Grows (IsAbove grown w.machine.workDir destination) grown :=
    (Disk.makeWithAncestors_grows hhere hmake).imp fun _ hnames => ⟨parent, hparent, hnames⟩
  refine ⟨IsReady.of_lands ⟨rfl, hhere, hbase⟩ hgrows hlands hwork, destination, hpath, Or.inr
    ⟨grown, place, written, hstale, ?_, hgrows, hlands, hdownloads, hstage, hreport⟩⟩
  exact hbelow.makeDirectories_cases hbase hstale.1 hhere hparent hmake

/-- What an object that could not be synced did to the files of such a machine: it made some of the
    directories above its destination, and nothing that could be found there. -/
theorem object_error_cases (hstorage : storage.WritesOnlyGiven) (hfails : storage.FailsInGiven)
    (hready : IsReady here root localDir w.machine)
    (h : (Sync.object storage base dir localDir report object).run w = (.error e, w')) :
    IsReady here root localDir w'.machine ∧
    w.machine.tree.Grows (fun place => ∃ destination,
      localPath localDir object.relativePath = .ok destination ∧
        IsAbove w'.machine.tree here destination place) w'.machine.tree ∧
    ∀ destination, localPath localDir object.relativePath = .ok destination →
      ∀ follow place entry,
        w'.machine.tree.find here follow destination = .ok (.entry place entry) ↔
          w.machine.tree.find here follow destination = .ok (.entry place entry) := by
  rcases object_error h with ⟨rfl, _⟩ | ⟨destination, hpath, hstale, hfetch⟩
  · exact ⟨hready, .refl _, fun _ _ _ _ _ => Iff.rfl⟩
  obtain ⟨rfl, hhere, hbase⟩ := hready
  have hbelow := liesBelow_of_localPath hpath
  have hstale := isStale_of_isCurrent hstale hbelow.ne_empty
  obtain ⟨parent, result, grown, hparent, hmake, hsame, hwork⟩ :=
    fetch_error hstorage hfails hhere hbelow hbase hstale hfetch
  have hgrows := Disk.makeWithAncestors_grows hhere hmake
  have hkeeps : w.machine.tree.Keeps w'.machine.tree := fun place entry hentry =>
    hsame.keeps _ _ (hgrows.keeps _ _ hentry)
  refine ⟨⟨hwork, hkeeps _ _ hhere, hbase.mono hkeeps⟩, fun place => ?_, ?_⟩
  · rw [hsame place]
    refine (hgrows place).imp_right fun ⟨hfree, hnew, above, hmem, hnames⟩ => ?_
    exact ⟨hfree, hnew, destination, hpath, parent, hparent, above, hmem, hnames.mono hsame.keeps⟩
  · intro destination' hpath' follow place entry
    rw [hpath] at hpath'
    cases hpath'
    constructor
    · intro hfind
      have hfind := find_mono hfind hsame.symm.keeps
      rcases hbelow.makeDirectories_cases hbase hstale.1 hhere hparent hmake with rfl | hvoid
      · exact hfind
      · exact absurd hfind (hvoid follow place entry)
    · intro hfind
      exact find_mono hfind hkeeps

end StepRunner.Sync
