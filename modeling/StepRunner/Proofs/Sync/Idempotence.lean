import StepRunner.Proofs.Storage.Memory
import StepRunner.Proofs.Sync.Recording

namespace StepRunner.Sync

open FileTree

variable {σ τ : Type} {storage : Storage σ} {again : Storage τ} {base dir localDir : String}
  {object : RemoteObject} {w w₁ w' : World σ} {report report' : SyncReport}
  {t t' : FileTree} {here root : Location} {listed done rest : List RemoteObject}

/-- Whether the copy of an object is found and at least as new as the object. -/
def HasCurrent (t : FileTree) (here : Location) (localDir : String) (object : RemoteObject) :
    Prop :=
  ∃ destination place data, localPath localDir object.relativePath = .ok destination ∧
    t.stat here destination = .ok (place, .file data) ∧ object.updated.toInstant ≤ data.modified

theorem HasCurrent.mono (h : HasCurrent t here localDir object) (hkeeps : t.Keeps t') :
    HasCurrent t' here localDir object := by
  obtain ⟨destination, place, data, hpath, hstat, hle⟩ := h
  refine ⟨destination, place, data, hpath, ?_, hle⟩
  rw [stat_eq_ok_iff] at hstat ⊢
  exact find_mono hstat hkeeps

/-- A file that replaces older files only leaves no copy older than it was. -/
theorem HasCurrent.of_lands {grown : FileTree} {place : Location} {new : FileData}
    {destination : String} (h : HasCurrent grown here localDir object)
    (hlands : Lands grown t' here destination place new)
    (holder : ∀ found data, grown.StandsFor place found data →
      grown.get? found = some (.file data) → data.modified < new.modified) :
    HasCurrent t' here localDir object := by
  obtain ⟨path, found, data, hpath, hstat, hle⟩ := h
  obtain ⟨husable, links, hlinks, hleads⟩ := find_eq_ok_iff.1 (stat_eq_ok_iff.1 hstat)
  obtain ⟨fewer, hfewer, ⟨_, hkept⟩ | ⟨hstands, hnew⟩⟩ :=
    hleads.file_or_new hlands.off hlands.not_isOpen hlands.get?_eq
  · exact ⟨path, found, data, hpath, stat_eq_ok_iff.2 (find_eq_ok_iff.2
      ⟨husable, fewer, Nat.le_trans hfewer hlinks, hkept⟩), hle⟩
  · have hlt := holder found data hstands (hleads.get?_eq (by simp))
    exact ⟨path, place, new, hpath, stat_eq_ok_iff.2 (find_eq_ok_iff.2
      ⟨husable, fewer, Nat.le_trans hfewer hlinks, hnew⟩), Instant.le_trans hle (Int.le_of_lt hlt)⟩

/-- On the machine the local directory is there, and the copies of some objects are current. -/
structure AllCurrent (here root : Location) (localDir : String) (done : List RemoteObject)
    (m : Machine) : Prop where
  ready : IsReady here root localDir m
  current : ∀ object ∈ done, HasCurrent m.tree here localDir object

/-- Syncing one object makes its copy current, and those that were current stay so. -/
theorem AllCurrent.step (hstorage : storage.WritesOnlyGiven)
    (hinv : AllCurrent here root localDir done w.machine)
    (h : (Sync.object storage base dir localDir report object).run w = (.ok report', w')) :
    AllCurrent here root localDir (done ++ [object]) w'.machine := by
  obtain ⟨hready, destination, hpath, ⟨hcurrent, _, log, rfl⟩ | hfetched⟩ :=
    object_ok_cases hstorage hinv.ready h
  · obtain ⟨place, data, hstat, hle⟩ := isCurrent_eq_true_iff.1 hcurrent
    rw [hinv.ready.workDir] at hstat
    refine ⟨hready, ?_⟩
    intro other hother
    rcases List.mem_append.1 hother with hdone | hlast
    · exact hinv.current other hdone
    · obtain rfl := List.mem_singleton.1 hlast
      exact ⟨destination, place, data, hpath, hstat, hle⟩
  · obtain ⟨grown, place, written, hstale, hreadies, hgrows, hlands, _⟩ := hfetched
    refine ⟨hready, ?_⟩
    intro other hother
    rcases List.mem_append.1 hother with hdone | hlast
    · refine ((hinv.current other hdone).mono hgrows.keeps).of_lands hlands ?_
      intro found data hstands hfile
      exact hreadies.modified_lt hstale hlands.find_eq hlands.not_directory hstands hfile
    · obtain rfl := List.mem_singleton.1 hlast
      exact ⟨destination, place, _, hpath, hlands.stat_eq, Instant.le_refl _⟩

/-- After a sync the copies of all objects that were listed are current. -/
theorem allCurrent_of_directory (hstorage : storage.WritesOnlyGiven)
    (hwork : w.machine.tree.get? w.machine.workDir = some .directory)
    (hlisting : (listing storage base dir localDir).run w = (.ok listed, w₁))
    (hrun : (directory storage base dir localDir).run w = (.ok report, w')) :
    ∃ root, AllCurrent w.machine.workDir root localDir listed w'.machine := by
  obtain ⟨listed', w₁', w₂, log, hlisting', hobjects, rfl⟩ := directory_ok hrun
  rw [hlisting] at hlisting'
  cases hlisting'
  obtain ⟨root, hready, _⟩ := isReady_of_listing hstorage hwork hlisting
  have hnone : AllCurrent w.machine.workDir root localDir [] w₁.machine := ⟨hready, by simp⟩
  obtain ⟨hready', hcurrent⟩ := objects_ok
    (fun done _ now => AllCurrent w.machine.workDir root localDir done now.machine)
    (fun _ hinv h => hinv.step hstorage h) hobjects (List.nil_append _).symm hnone
  exact ⟨root, hready'.of_sameFiles ⟨rfl, .refl _⟩, hcurrent⟩

/-- Objects whose copies are current are reported as such, and nothing else is done. -/
theorem objects_of_current (hwork : w.machine.workDir = here)
    (hcurrent : ∀ object ∈ rest, HasCurrent w.machine.tree here localDir object) :
    ∃ log, (objects storage base dir localDir report rest).run w =
      (.ok { report with upToDate := report.upToDate ++ rest.map (·.relativePath) },
        { w with machine := { w.machine with log } }) := by
  induction rest generalizing report w with
  | nil => exact ⟨w.machine.log, by simp [objects]⟩
  | cons first rest ih =>
    obtain ⟨destination, place, data, hpath, hstat, hle⟩ := hcurrent first List.mem_cons_self
    have hfirst : isCurrent w.machine destination first = .ok true :=
      isCurrent_eq_true_iff.2 ⟨place, data, hwork ▸ hstat, hle⟩
    obtain ⟨log, hobject⟩ := object_of_current storage base dir report hpath hfirst
    obtain ⟨log', hrest⟩ := @ih { w with machine := { w.machine with log } }
      { report with upToDate := report.upToDate ++ [first.relativePath] } hwork
      fun object hmem => hcurrent object (List.mem_cons_of_mem _ hmem)
    refine ⟨log', ?_⟩
    rw [objects_cons, Action.run_bind, hobject]
    simp only
    rw [hrest]
    simp

/-- Syncing twice is syncing once. When a sync has succeeded, and no local file has changed since,
    another one from a storage that lists the same objects succeeds too: it reports all of them as
    up to date, in the order of the listing, asks for no download and leaves every local file, link
    and directory as it is. -/
theorem directory_idempotent {w₂ : World τ} {base' dir' : String}
    (hstorage : storage.WritesOnlyGiven)
    (hwork : w.machine.tree.get? w.machine.workDir = some .directory)
    (hlisting : (listing storage base dir localDir).run w = (.ok listed, w₁))
    (hrun : (directory storage base dir localDir).run w = (.ok report, w'))
    (hsame : w'.machine.SameFiles w₂.machine) (hlists : again.Lists base' dir' w₂ listed) :
    ∃ w₃, (directory again base' dir' localDir).run w₂ =
        (.ok ⟨[], listed.map (·.relativePath)⟩, w₃) ∧
      (directory again.recording base' dir' localDir).run (recorded w₂ []) =
        (.ok ⟨[], listed.map (·.relativePath)⟩, recorded w₃ []) ∧
      w₂.machine.SameFiles w₃.machine := by
  obtain ⟨root, hready, hcurrent⟩ := allCurrent_of_directory hstorage hwork hlisting hrun
  obtain ⟨hwork₂, hhere, hnames⟩ := hready.of_sameFiles hsame
  have hmake : (Disk.makeDirectories w₂.machine.workDir localDir).run w₂.machine.tree =
      (.ok (), w₂.machine.tree) := by
    rw [hwork₂]
    exact Disk.makeWithAncestors_of_namesDirectory hnames
  obtain ⟨w₄, hlisting₂⟩ := listing_of_list hmake fun log =>
    (hlists log).imp fun _ h => h.1
  obtain ⟨log, tree, hmake', hlist⟩ := listing_ok hlisting₂
  rw [hmake] at hmake'
  cases hmake'
  obtain ⟨_, hlist', hkept⟩ := hlists log
  rw [hlist] at hlist'
  cases hlist'
  have hcurrent₂ : ∀ object ∈ listed,
      HasCurrent w₄.machine.tree w.machine.workDir localDir object := fun object hmem =>
    ((hcurrent object hmem).mono hsame.tree.keeps).mono hkept.tree.keeps
  obtain ⟨log', hobjects⟩ :
      ∃ log, (objects again base' dir' localDir ⟨[], []⟩ listed).run w₄ =
        (.ok ⟨[], listed.map (·.relativePath)⟩, { w₄ with machine := { w₄.machine with log } }) :=
    objects_of_current (hkept.workDir.trans hwork₂) hcurrent₂
  obtain ⟨log'', hdirectory⟩ := directory_of_listing hlisting₂ hobjects
  obtain ⟨calls, hrecorded, hcalls⟩ := directory_recording hdirectory
  obtain rfl : calls = [] := List.map_eq_nil_iff.1 hcalls
  exact ⟨_, hdirectory, hrecorded, hkept.workDir, hkept.tree⟩

/-- The first sync downloads what the second one finds. -/
theorem directory_idempotent_of_download : ∃ w' w₃ : World ObjectStore,
    (directory ObjectStore.storage "gs://b" "d" "x").run
        (ObjectStore.trial .empty [("gs://b/d/a", ⟨[1], ObjectStore.atSecond 1⟩)]) =
      (.ok ⟨["a"], []⟩, w') ∧
    (directory ObjectStore.storage "gs://b" "d" "x").run w' = (.ok ⟨[], ["a"]⟩, w₃) ∧
    w'.machine.SameFiles w₃.machine := by
  obtain ⟨w₁, hlisting, _⟩ : ∃ w₁, (listing ObjectStore.storage "gs://b" "d" "x").run
      (ObjectStore.trial .empty [("gs://b/d/a", ⟨[1], ObjectStore.atSecond 1⟩)]) =
        (.ok [⟨"a", ObjectStore.atSecond 1, 1⟩], w₁) ∧ True :=
    Action.exists_run (by decide +kernel) trivial
  obtain ⟨w', hrun, hbelow⟩ : ∃ w', (directory ObjectStore.storage "gs://b" "d" "x").run
      (ObjectStore.trial .empty [("gs://b/d/a", ⟨[1], ObjectStore.atSecond 1⟩)]) =
        (.ok ⟨["a"], []⟩, w') ∧
      w'.remote.below "gs://b" "d" = [⟨"a", ObjectStore.atSecond 1, 1⟩] :=
    Action.exists_run (by decide +kernel) (by decide +kernel)
  have hlists := ObjectStore.storage_lists "gs://b" "d" w'
  rw [hbelow] at hlists
  obtain ⟨w₃, hagain, _, hsame⟩ := directory_idempotent ObjectStore.storage_writesOnlyGiven rfl
    hlisting hrun ⟨rfl, .refl _⟩ hlists
  exact ⟨w', w₃, hrun, hagain, hsame⟩

end StepRunner.Sync
