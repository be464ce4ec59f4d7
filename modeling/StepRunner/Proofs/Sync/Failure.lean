import StepRunner.Proofs.Storage.Memory
import StepRunner.Proofs.Sync.Objects

namespace StepRunner

/-- The storage with its listings cut off after some objects. -/
def Storage.taking {σ : Type} (storage : Storage σ) (count : Nat) : Storage σ :=
  { storage with list := fun base dir => return (← storage.list base dir).take count }

namespace Sync

open FileTree

variable {σ : Type} {storage : Storage σ} {base dir localDir : String} {object : RemoteObject}
  {w w₁ w' : World σ} {e : StorageError} {report report' : SyncReport} {here root : Location}
  {listed done rest : List RemoteObject}

theorem listing_taking (h : (listing storage base dir localDir).run w = (.ok listed, w'))
    (count : Nat) : (listing (storage.taking count) base dir localDir).run w =
      (.ok (listed.take count), w') := by
  rw [listing, Action.run_bind, Action.run_note] at h ⊢
  simp only at h ⊢
  obtain ⟨_, _, hmade, hlist⟩ := Action.run_bind_eq_ok.1 h
  refine Action.run_bind_eq_ok.2 ⟨_, _, hmade, ?_⟩
  simp only [Storage.taking]
  exact Action.run_bind_eq_ok.2 ⟨listed, w', hlist, rfl⟩

/-- Only listings are cut off. -/
theorem objects_taking (storage : Storage σ) (count : Nat) (report : SyncReport)
    (rest : List RemoteObject) : objects (storage.taking count) base dir localDir report rest =
      objects storage base dir localDir report rest := by
  induction rest generalizing report with
  | nil => rfl
  | cons first rest ih =>
    rw [objects_cons, objects_cons]
    simp only [ih]
    rfl

/-- `IsCopyOf storage base dir object place data` says that a file has the name and the time of an
    object and the contents that a download of it has written. -/
structure IsCopyOf (storage : Storage σ) (base dir : String) (object : RemoteObject)
    (place : Location) (data : FileData) : Prop where
  name : place.head? = (wayNames object.relativePath).getLast?
  modified : data.modified = object.updated.toInstant
  contents : storage.Gives base dir object data.contents

/-- A file that lands has the name of its object. -/
theorem Lands.head?_place {grown t' : FileTree} {destination : String} {place : Location}
    {new : FileData} (h : Lands grown t' here destination place new)
    (hpath : localPath localDir object.relativePath = .ok destination) :
    place.head? = (wayNames object.relativePath).getLast? := by
  have hbelow := liesBelow_of_localPath hpath
  obtain ⟨_, _, _, hleads⟩ := find_eq_ok_iff.1 h.find_eq
  obtain ⟨first, name, above, hsteps, hname, _, hplace⟩ :=
    hleads.last_step (by simpa using h.not_directory)
  rw [place_targetAt] at hplace
  have hnames := hbelow.wayNames_eq
  rw [wayNames, hsteps, List.filter_append, List.filter_cons_of_pos (by simpa using hname.1)] at hnames
  have hlast := congrArg List.getLast? hnames
  rw [List.getLast?_append_of_ne_nil _ hbelow.names_ne_nil] at hlast
  rw [hplace, ← hlast]
  simp

/-- On the machine the local directory is there, and each file was there in the beginning or is a
    copy of one of some objects. -/
structure OldOrCopied (storage : Storage σ) (base dir : String) (here root : Location)
    (localDir : String) (t : FileTree) (done : List RemoteObject) (m : Machine) : Prop where
  ready : IsReady here root localDir m
  files : ∀ place data, m.tree.get? place = some (.file data) →
    t.get? place = some (.file data) ∨ ∃ object ∈ done, IsCopyOf storage base dir object place data

theorem OldOrCopied.step {t : FileTree} (hstorage : storage.WritesOnlyGiven)
    (hinv : OldOrCopied storage base dir here root localDir t done w.machine)
    (h : (Sync.object storage base dir localDir report object).run w = (.ok report', w')) :
    OldOrCopied storage base dir here root localDir t (done ++ [object]) w'.machine := by
  have hkept {place : Location} {data : FileData}
      (hfile : w.machine.tree.get? place = some (.file data)) :
      t.get? place = some (.file data) ∨
        ∃ other ∈ done ++ [object], IsCopyOf storage base dir other place data :=
    (hinv.files place data hfile).imp_right fun ⟨other, hother, hcopy⟩ =>
      ⟨other, List.mem_append_left _ hother, hcopy⟩
  obtain ⟨hready, destination, hpath, ⟨_, _, log, rfl⟩ | hfetched⟩ :=
    object_ok_cases hstorage hinv.ready h
  · exact ⟨hready, fun place data hfile => hkept hfile⟩
  · obtain ⟨grown, landed, written, _, _, hgrows, hlands, hdownloads, _⟩ := hfetched
    refine ⟨hready, ?_⟩
    intro place data hfile
    by_cases hplace : place = landed
    · subst hplace
      rw [hlands.get?_eq] at hfile
      cases hfile
      exact Or.inr ⟨object, by simp, hlands.head?_place hpath, rfl, hdownloads.gives⟩
    · rw [hlands.off place hplace] at hfile
      exact hkept (hgrows.get?_eq (by simp) hfile)

/-- A sync that fails leaves nothing half done. If there is no listing, at most directories on the
    way to the local one are new. Otherwise some object failed: the files are those that a sync of
    exactly the objects before it would leave, but for missing directories above its destination;
    what was found there before, if anything, is still found there; and each file was there in the
    beginning or is the whole copy of an object before the one that failed. -/
theorem directory_failure (hstorage : storage.WritesOnlyGiven) (hfails : storage.FailsInGiven)
    (hwork : w.machine.tree.get? w.machine.workDir = some .directory)
    (hrun : (directory storage base dir localDir).run w = (.error e, w')) :
    ((listing storage base dir localDir).run w = (.error e, w') ∧
      w.machine.tree.Grows (IsOnWay w'.machine.tree w.machine.workDir localDir) w'.machine.tree) ∨
    ∃ before failing after w₁, (listing storage base dir localDir).run w =
        (.ok (before ++ failing :: after), w₁) ∧
      ∃ report w₂, (directory (storage.taking before.length) base dir localDir).run w =
          (.ok report, w₂) ∧
        w₂.machine.tree.Grows (fun place => ∃ destination,
          localPath localDir failing.relativePath = .ok destination ∧
            IsAbove w'.machine.tree w.machine.workDir destination place) w'.machine.tree ∧
        (∀ destination, localPath localDir failing.relativePath = .ok destination →
          ∀ follow place entry,
            w'.machine.tree.find w.machine.workDir follow destination =
                .ok (.entry place entry) ↔
              w₂.machine.tree.find w.machine.workDir follow destination =
                .ok (.entry place entry)) ∧
        ∀ place data, w'.machine.tree.get? place = some (.file data) →
          w.machine.tree.get? place = some (.file data) ∨
            ∃ object ∈ before, IsCopyOf storage base dir object place data := by
  rcases directory_error hrun with hlisting | ⟨listed, w₁, hlisting, hobjects⟩
  · exact Or.inl ⟨hlisting, (grows_of_listing_error hfails hwork hlisting).1⟩
  right
  obtain ⟨before, failing, after, middle, w₂, rfl, hbefore, hfailing⟩ := objects_error hobjects
  obtain ⟨root, hready, hgrows⟩ := isReady_of_listing hstorage hwork hlisting
  have hnone : OldOrCopied storage base dir w.machine.workDir root localDir w.machine.tree []
      w₁.machine :=
    ⟨hready, fun place data hfile => Or.inl (hgrows.get?_eq (by simp) hfile)⟩
  have hall : OldOrCopied storage base dir w.machine.workDir root localDir w.machine.tree before
      w₂.machine :=
    objects_ok (fun done _ now => OldOrCopied storage base dir w.machine.workDir root localDir
      w.machine.tree done now.machine) (fun _ hinv h => hinv.step hstorage h) hbefore (List.nil_append _).symm hnone
  obtain ⟨_, hnew, hfound⟩ := object_error_cases hstorage hfails hall.ready hfailing
  have htaking := listing_taking hlisting before.length
  rw [List.take_left] at htaking
  rw [← objects_taking storage before.length] at hbefore
  obtain ⟨log, hdirectory⟩ := directory_of_listing htaking hbefore
  exact ⟨before, failing, after, w₁, hlisting, middle, _, hdirectory, hnew, hfound,
    fun place data hfile => hall.files place data (hnew.get?_eq (by simp) hfile)⟩

/-- An object with an invalid path comes after one that can be synced. -/
theorem directory_failure_of_invalid_path : ∃ w',
    (directory ObjectStore.storage "gs://b" "d" "x").run
        (ObjectStore.trial .empty [("gs://b/d/a", ⟨[1], ObjectStore.atSecond 1⟩),
          ("gs://b/d/b/..", ⟨[2], ObjectStore.atSecond 1⟩)]) =
      (.error (.invalidObjectPath "b/.."), w') ∧
    w'.machine.tree.get? ["a", "x"] =
      some (.file ⟨[1], (ObjectStore.atSecond 1).toInstant, false⟩) ∧
    ∀ place data, w'.machine.tree.get? place = some (.file data) →
      ∃ object, IsCopyOf ObjectStore.storage "gs://b" "d" object place data := by
  obtain ⟨w', hrun, hcopy⟩ : ∃ w', (directory ObjectStore.storage "gs://b" "d" "x").run
        (ObjectStore.trial .empty [("gs://b/d/a", ⟨[1], ObjectStore.atSecond 1⟩),
          ("gs://b/d/b/..", ⟨[2], ObjectStore.atSecond 1⟩)]) =
      (.error (.invalidObjectPath "b/.."), w') ∧ w'.machine.tree.get? ["a", "x"] =
      some (.file ⟨[1], (ObjectStore.atSecond 1).toInstant, false⟩) :=
    Action.exists_run (by decide +kernel) (by decide +kernel)
  have hempty (place : Location) (data : FileData) :
      FileTree.empty.get? place ≠ some (.file data) := by
    cases place <;> nofun
  refine ⟨w', hrun, hcopy, ?_⟩
  intro place data hfile
  rcases directory_failure ObjectStore.storage_writesOnlyGiven ObjectStore.storage_failsInGiven rfl
    hrun with ⟨_, hgrows⟩ | ⟨before, _, _, _, _, _, _, _, _, _, hfiles⟩
  · exact absurd (hgrows.get?_eq (by simp) hfile) (hempty place data)
  · rcases hfiles place data hfile with hold | ⟨object, _, hcopied⟩
    · exact absurd hold (hempty place data)
    · exact ⟨object, hcopied⟩

end Sync

end StepRunner
