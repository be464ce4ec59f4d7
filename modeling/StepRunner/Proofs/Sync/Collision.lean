import StepRunner.Proofs.Sync.Merge
import StepRunner.Proofs.Sync.Mirror

namespace StepRunner

namespace Sync

open FileTree ObjectStore

variable {base dir localDir : String} {object other winner next : RemoteObject}
  {w w' : World ObjectStore} {store : ObjectStore} {report report' : SyncReport}
  {here root : Location} {listed done : List RemoteObject} {data : FileData}

/-- Two objects with the same path, but for dots and slashes that do not count. -/
def Collides (first second : RemoteObject) : Prop :=
  Path.components first.relativePath = Path.components second.relativePath

instance (first second : RemoteObject) : Decidable (Collides first second) :=
  inferInstanceAs (Decidable (_ = _))

/-- Whether an object collides with one before it that is at least as new. -/
def IsHidden (before : List RemoteObject) (object : RemoteObject) : Prop :=
  ∃ other ∈ before, Collides other object ∧ object.updated.toInstant ≤ other.updated.toInstant

instance (before : List RemoteObject) (object : RemoteObject) : Decidable (IsHidden before object) :=
  inferInstanceAs (Decidable (∃ other ∈ before, _ ∧ _ ≤ _))

/-- What a sync to an empty directory reports: that an object was up to date if it was hidden by one
    before it, and otherwise that it was downloaded. -/
def collapseReport (before : List RemoteObject) : List RemoteObject → SyncReport
  | [] => ⟨[], []⟩
  | object :: rest =>
    let report := collapseReport (before ++ [object]) rest
    if IsHidden before object then
      { report with upToDate := object.relativePath :: report.upToDate }
    else { report with downloaded := object.relativePath :: report.downloaded }

theorem collapseReport_concat (before done : List RemoteObject) (object : RemoteObject) :
    collapseReport before (done ++ [object]) =
      if IsHidden (before ++ done) object then
        { collapseReport before done with
          upToDate := (collapseReport before done).upToDate ++ [object.relativePath] }
      else
        { collapseReport before done with
          downloaded := (collapseReport before done).downloaded ++ [object.relativePath] } := by
  induction done generalizing before with
  | nil => rw [List.append_nil]; rfl
  | cons first done ih =>
    rw [List.cons_append, collapseReport, ih, List.append_assoc, List.singleton_append,
      collapseReport]
    split <;> split <;> rfl

/-- `Remains objects object winner` says that of those objects that collide with `object` the newest
    one is `winner`, and if there are several ones it is the first. -/
def Remains (objects : List RemoteObject) (object winner : RemoteObject) : Prop :=
  Collides winner object ∧ ∃ before after, objects = before ++ winner :: after ∧
    (∀ other ∈ before, Collides other object →
      other.updated.toInstant < winner.updated.toInstant) ∧
    ∀ other ∈ after, Collides other object →
      other.updated.toInstant ≤ winner.updated.toInstant

namespace Remains

theorem mem (h : Remains listed object winner) : winner ∈ listed := by
  obtain ⟨_, _, _, rfl, _⟩ := h
  simp

theorem le (h : Remains listed object winner) (hmem : other ∈ listed)
    (hcollides : Collides other object) :
    other.updated.toInstant ≤ winner.updated.toInstant := by
  obtain ⟨_, before, after, rfl, hbefore, hafter⟩ := h
  rcases List.mem_append.1 hmem with hmem | hmem
  · exact Int.le_of_lt (hbefore other hmem hcollides)
  · rcases List.mem_cons.1 hmem with rfl | hmem
    · exact Instant.le_refl _
    · exact hafter other hmem hcollides

theorem congr (h : Remains listed object winner) (hcollides : Collides object other) :
    Remains listed other winner := by
  obtain ⟨hwinner, before, after, heq, hbefore, hafter⟩ := h
  exact ⟨hwinner.trans hcollides, before, after, heq,
    fun old hmem hold => hbefore old hmem (hold.trans hcollides.symm),
    fun old hmem hold => hafter old hmem (hold.trans hcollides.symm)⟩

/-- An object that comes later and is not newer changes nothing. -/
theorem concat (h : Remains listed object winner)
    (hnext : Collides next object → next.updated.toInstant ≤ winner.updated.toInstant) :
    Remains (listed ++ [next]) object winner := by
  obtain ⟨hwinner, before, after, rfl, hbefore, hafter⟩ := h
  refine ⟨hwinner, before, after ++ [next], by simp, hbefore, fun other hmem hcollides => ?_⟩
  rcases List.mem_append.1 hmem with hmem | hmem
  · exact hafter other hmem hcollides
  · rw [List.mem_singleton.1 hmem] at hcollides ⊢
    exact hnext hcollides

end Remains

/-- An object that comes later and is newer replaces those that it collides with. -/
theorem remains_concat (hnext : Collides next object)
    (hnewer : ∀ other ∈ listed, Collides other object →
      other.updated.toInstant < next.updated.toInstant) :
    Remains (listed ++ [next]) object next :=
  ⟨hnext, listed, [], rfl, hnewer, by simp⟩

/-- The time and the contents of a file are those under the key that an object was listed from. -/
def HoldsObject (store : ObjectStore) (base dir : String) (object : RemoteObject)
    (data : FileData) : Prop :=
  ∃ key stored, (key, stored) ∈ store.objects ∧
    pathBelow? base dir key = some object.relativePath ∧ data.contents = stored.contents ∧
    data.modified = stored.updated.toInstant ∧ object.updated = stored.updated

/-- After some objects have been synced to an empty directory, the files below it are the copies of
    those of them that remain. -/
structure Collapsed (store : ObjectStore) (base dir : String) (here root : Location)
    (localDir : String) (done : List RemoteObject) (w : World ObjectStore) : Prop where
  ready : IsReady here root localDir w.machine
  links : w.machine.tree.HasNoLinks root
  remote : w.remote.objects = store.objects
  files : ∀ place data, root <:+ place → w.machine.tree.get? place = some (.file data) →
    ∃ object ∈ done, place = copyPlace root object.relativePath
  copies : ∀ object ∈ done, ∃ destination winner data,
    localPath localDir object.relativePath = .ok destination ∧
    IsPlain localDir destination (wayNames object.relativePath) ∧ Remains done object winner ∧
    HoldsObject store base dir winner data ∧
    w.machine.tree.get? (copyPlace root object.relativePath) = some (.file data)

theorem collides_iff_copyPlace {destination destination' : String}
    (hpath : localPath localDir object.relativePath = .ok destination)
    (hpath' : localPath localDir other.relativePath = .ok destination') :
    copyPlace root object.relativePath = copyPlace root other.relativePath ↔
      Collides object other :=
  copyPlace_inj (localPath_eq_ok_iff.1 hpath).2.1 (localPath_eq_ok_iff.1 hpath').2.1

namespace Collapsed

/-- An object is found to be there if it collides with one before it that is at least as new. -/
theorem newEnough?_isSome_iff {destination : String}
    (h : Collapsed store base dir here root localDir done w)
    (hpath : localPath localDir object.relativePath = .ok destination) :
    (newEnough? w.machine.tree root object).isSome ↔ IsHidden done object := by
  rw [Option.isSome_iff_exists]
  constructor
  · rintro ⟨data, hdata⟩
    obtain ⟨hfile, hle⟩ := newEnough?_eq_some_iff.1 hdata
    obtain ⟨other, hmem, hplace⟩ := h.files _ _ (suffix_copyPlace root _) hfile
    obtain ⟨_, winner, data', hpath', _, hremains, ⟨_, _, _, _, _, htime, hupdated⟩, hcopy⟩ :=
      h.copies other hmem
    rw [hplace, hcopy] at hfile
    cases hfile
    have hcollides := (collides_iff_copyPlace hpath hpath').1 hplace
    refine ⟨winner, hremains.mem, hremains.1.trans hcollides.symm, ?_⟩
    rwa [hupdated, ← htime]
  · rintro ⟨other, hmem, hcollides, hle⟩
    obtain ⟨_, winner, data, hpath', _, hremains, ⟨_, _, _, _, _, htime, hupdated⟩, hcopy⟩ :=
      h.copies other hmem
    rw [(collides_iff_copyPlace hpath' hpath).2 hcollides] at hcopy
    refine ⟨data, newEnough?_eq_some_iff.2 ⟨hcopy, ?_⟩⟩
    rw [htime, ← hupdated]
    exact Instant.le_trans hle (hremains.le hmem rfl)

/-- An object that is not hidden takes the place of those that it collides with. -/
theorem concat {grown : FileTree} {destination : String} {allowed : Location → Prop}
    (h : Collapsed store base dir here root localDir done w)
    (hready : IsReady here root localDir w'.machine) (hremote : w'.remote.objects = store.objects)
    (hpath : localPath localDir object.relativePath = .ok destination)
    (hplain : IsPlain localDir destination (wayNames object.relativePath))
    (hgrows : w.machine.tree.Grows allowed grown)
    (hoff : SameOff (copyPlace root object.relativePath) grown w'.machine.tree)
    (hcopy : w'.machine.tree.get? (copyPlace root object.relativePath) = some (.file data))
    (hholds : HoldsObject store base dir object data) (hshown : ¬IsHidden done object) :
    Collapsed store base dir here root localDir (done ++ [object]) w' where
  ready := hready
  links place text hbelow hlink := by
    by_cases hplace : place = copyPlace root object.relativePath
    · rw [hplace, hcopy] at hlink
      cases hlink
    · rw [hoff place hplace] at hlink
      exact h.links place text hbelow (hgrows.get?_eq (by simp) hlink)
  remote := hremote
  files place data hbelow hfile := by
    by_cases hplace : place = copyPlace root object.relativePath
    · exact ⟨object, by simp, hplace⟩
    · rw [hoff place hplace] at hfile
      obtain ⟨other, hmem, heq⟩ := h.files place data hbelow (hgrows.get?_eq (by simp) hfile)
      exact ⟨other, List.mem_append_left _ hmem, heq⟩
  copies other hmem := by
    have hnewer : ∀ old ∈ done, Collides old object →
        old.updated.toInstant < object.updated.toInstant := fun old hold hcollides =>
      Int.not_le.1 fun hle => hshown ⟨old, hold, hcollides, hle⟩
    rcases List.mem_append.1 hmem with hdone | hlast
    · obtain ⟨destination', winner, data', hpath', hplain', hremains, hholds', hcopy'⟩ :=
        h.copies other hdone
      by_cases hcollides : Collides object other
      · refine ⟨destination', object, data, hpath', hplain', remains_concat hcollides ?_, hholds, ?_⟩
        · exact fun old hold hother => hnewer old hold (hother.trans hcollides.symm)
        · rw [← (collides_iff_copyPlace hpath hpath').2 hcollides, hcopy]
      · refine ⟨destination', winner, data', hpath', hplain',
          hremains.concat fun hnext => absurd hnext hcollides, hholds', ?_⟩
        rw [hoff _ fun hplace => hcollides ((collides_iff_copyPlace hpath hpath').1 hplace.symm)]
        exact hgrows.keeps _ _ hcopy'
    · rw [List.mem_singleton.1 hlast]
      exact ⟨destination, object, data, hpath, hplain, remains_concat rfl hnewer, hholds, hcopy⟩

/-- An object that is hidden has no copy of its own, and those that there are stay. -/
theorem concat_hidden {destination : String} {log : List Log.Event}
    (h : Collapsed store base dir here root localDir done w)
    (hpath : localPath localDir object.relativePath = .ok destination)
    (hplain : IsPlain localDir destination (wayNames object.relativePath))
    (hhidden : IsHidden done object) :
    Collapsed store base dir here root localDir (done ++ [object])
      { w with machine := { w.machine with log } } where
  ready := h.ready.of_sameFiles ⟨rfl, .refl _⟩
  links := h.links
  remote := h.remote
  files place data hbelow hfile := by
    obtain ⟨other, hmem, heq⟩ := h.files place data hbelow hfile
    exact ⟨other, List.mem_append_left _ hmem, heq⟩
  copies other hmem := by
    obtain ⟨newer, hnewer, hcollides, hle⟩ := hhidden
    rcases List.mem_append.1 hmem with hdone | hlast
    · obtain ⟨destination', winner, data, hpath', hplain', hremains, hrest⟩ := h.copies other hdone
      refine ⟨destination', winner, data, hpath', hplain', hremains.concat fun hnext => ?_, hrest⟩
      exact Instant.le_trans hle (hremains.le hnewer (hcollides.trans hnext))
    · rw [List.mem_singleton.1 hlast]
      obtain ⟨_, winner, data, hpath', _, hremains, hholds, hcopy⟩ := h.copies newer hnewer
      refine ⟨destination, winner, data, hpath, hplain, (hremains.congr hcollides).concat fun _ => ?_,
        hholds, ?_⟩
      · exact Instant.le_trans hle (hremains.le hnewer rfl)
      · rwa [← (collides_iff_copyPlace hpath' hpath).2 hcollides]

/-- One object of the store more. -/
theorem step (h : Collapsed store base dir here root localDir done w)
    (hordered : IsOrdered store.objects) (hlisted : object ∈ store.below base dir)
    (hrun : (Sync.object ObjectStore.storage base dir localDir (collapseReport [] done) object).run w =
      (.ok report', w')) :
    Collapsed store base dir here root localDir (done ++ [object]) w' ∧
      report' = collapseReport [] (done ++ [object]) := by
  obtain ⟨hready, destination, grown, data, hpath, hplain, hgrows, _, hoff, hcopy, hcases⟩ :=
    object_ok_copy storage_writesOnlyGiven h.ready h.links hrun
  have hiff := h.newEnough?_isSome_iff hpath
  rw [collapseReport_concat, List.nil_append]
  rcases hcases with ⟨hold, hreport, log, rfl⟩ | ⟨hnone, hreport, written, hdata, hdownloads, _⟩
  · have hhidden : IsHidden done object := hiff.1 (by simp [hold])
    exact ⟨h.concat_hidden hpath hplain hhidden, by rw [hreport, if_pos hhidden]⟩
  · have hshown : ¬IsHidden done object := fun hhidden => by simpa [hnone] using hiff.2 hhidden
    have hremote : w'.remote.objects = w.remote.objects :=
      object_remote (storage_isServedBy base dir) hrun
    obtain ⟨key, stored, hmem, hkey, hupdated, _⟩ := mem_below.1 hlisted
    obtain ⟨path, given, tree, _, _, hstat, hdownload, hleft⟩ := hdownloads
    have hgiven : Machine.LeadsToFile { w.machine with tree } path given := ⟨_, hstat⟩
    obtain ⟨found, hfound, hcontents⟩ :=
      (storage_isServedBy base dir).downloaded hgiven hdownload hleft
    rw [keyOf_of_stat hkey hpath (stat_of_isPlain hplain hready.names hcopy)] at hfound
    have hfound' : (key, found) ∈ store.objects := h.remote ▸ mem_of_get? hfound
    obtain rfl := hordered.eq_of_mem hmem hfound'
    refine ⟨h.concat hready (hremote.trans h.remote) hpath hplain hgrows hoff hcopy ?_ hshown,
      by rw [hreport, if_neg hshown]⟩
    exact ⟨key, stored, hmem, hkey, by rw [hdata]; exact hcontents, by rw [hdata, hupdated],
      hupdated⟩

end Collapsed

theorem listing_of_store {w₁ : World ObjectStore}
    (h : (listing ObjectStore.storage base dir localDir).run w = (.ok listed, w₁)) :
    listed = w.remote.below base dir ∧ w₁.remote.objects = w.remote.objects := by
  obtain ⟨log, tree, _, hlist⟩ := listing_ok h
  rw [storage_list] at hlist
  cases hlist
  exact ⟨rfl, rfl⟩

/-- A sync of a store to an empty directory collapses objects whose paths differ only by dots and
    slashes that do not count: they have one file, and it holds what is stored under the key of the
    newest of them, or of the first of these in the listing. An object that comes after one with the
    same file that is at least as new is reported as up to date though the file is not its own. -/
theorem directory_collapses (hordered : IsOrdered w.remote.objects)
    (hwork : w.machine.tree.get? w.machine.workDir = some .directory)
    (hrun : (directory ObjectStore.storage base dir localDir).run w = (.ok report, w'))
    (hroot : w'.machine.tree.NamesDirectory w.machine.workDir localDir root)
    (hempty : ∀ place, root <:+ place → place ≠ root → w.machine.tree.get? place = none) :
    (∀ object ∈ w.remote.below base dir, ∃ destination winner data,
      localPath localDir object.relativePath = .ok destination ∧
      w'.machine.tree.stat w.machine.workDir destination =
        .ok (copyPlace root object.relativePath, .file data) ∧
      Remains (w.remote.below base dir) object winner ∧
      HoldsObject w.remote base dir winner data) ∧
    (∀ first ∈ w.remote.below base dir, ∀ second ∈ w.remote.below base dir,
      copyPlace root first.relativePath = copyPlace root second.relativePath ↔
        Collides first second) ∧
    report = collapseReport [] (w.remote.below base dir) := by
  obtain ⟨listed, w₁, w₂, log, hlisting, hobjects, rfl⟩ := directory_ok hrun
  obtain ⟨rfl, hremote⟩ := listing_of_store hlisting
  obtain ⟨root', hready, hgrows⟩ := isReady_of_listing storage_writesOnlyGiven hwork hlisting
  obtain rfl : root' = root :=
    (objects_namesDirectory storage_writesOnlyGiven hready hready.names hobjects).unique hroot
  have hnothing {place : Location} {entry : Entry} (hbelow : root' <:+ place)
      (hentry : w₁.machine.tree.get? place = some entry) : entry = .directory := by
    by_contra hnot
    by_cases hplace : place = root'
    · rw [hplace, hready.names.get?_eq hready.isDirectory] at hentry
      exact hnot (Option.some.inj hentry).symm
    · have hold := hgrows.get?_eq hnot hentry
      rw [hempty place hbelow hplace] at hold
      cases hold
  have hbegin : Collapsed w.remote base dir w.machine.workDir root' localDir [] w₁ :=
    { ready := hready
      links := fun place text hbelow hlink => by cases hnothing hbelow hlink
      remote := hremote
      files := fun place data hbelow hfile => by cases hnothing hbelow hfile
      copies := by simp }
  obtain ⟨hend, hreport⟩ := objects_ok
    (fun done report now => Collapsed w.remote base dir w.machine.workDir root' localDir done now ∧
      report = collapseReport [] done)
    (fun hsplit ⟨hinv, hreport⟩ hobject =>
      hinv.step hordered (by simp [hsplit]) (hreport ▸ hobject)) hobjects (List.nil_append _).symm
    ⟨hbegin, rfl⟩
  refine ⟨fun object hmem => ?_, fun first hfirst second hsecond => ?_, hreport⟩
  · obtain ⟨destination, winner, data, hpath, hplain, hremains, hholds, hcopy⟩ :=
      hend.copies object hmem
    exact ⟨destination, winner, data, hpath, stat_of_isPlain hplain hend.ready.names hcopy, hremains,
      hholds⟩
  · obtain ⟨_, _, _, hpath, _⟩ := hend.copies first hfirst
    obtain ⟨_, _, _, hpath', _⟩ := hend.copies second hsecond
    exact collides_iff_copyPlace hpath hpath'

/-- A store with two objects of one time that have one file, in an empty file tree. -/
def colliding (updated : Timestamp) : World ObjectStore :=
  trial .empty [("gs://b/d/a//b", ⟨[1], updated⟩), ("gs://b/d/a/b", ⟨[2], updated⟩)]

theorem directory_collapses_colliding : ∃ w',
    (directory ObjectStore.storage "gs://b" "d" "x").run (colliding (atSecond 1)) =
      (.ok ⟨["a//b"], ["a/b"]⟩, w') ∧
    ∃ destination winner data, localPath "x" "a/b" = .ok destination ∧
      w'.machine.tree.stat [] destination = .ok (["b", "a", "x"], .file data) ∧
      Remains ((colliding (atSecond 1)).remote.below "gs://b" "d") ⟨"a/b", atSecond 1, 1⟩ winner ∧
      HoldsObject (colliding (atSecond 1)).remote "gs://b" "d" winner data := by
  obtain ⟨w', hrun, hstat⟩ : ∃ w',
      (directory ObjectStore.storage "gs://b" "d" "x").run (colliding (atSecond 1)) =
        (.ok ⟨["a//b"], ["a/b"]⟩, w') ∧ w'.machine.tree.stat [] "x" = .ok (["x"], .directory) :=
    Action.exists_run (by decide +kernel) (by decide +kernel)
  have hordered : IsOrdered (colliding (atSecond 1)).remote.objects :=
    List.pairwise_pair.2 (by decide : "gs://b/d/a//b" < "gs://b/d/a/b")
  have hempty (place : Location) (hbelow : ["x"] <:+ place) (_ : place ≠ ["x"]) :
      (colliding (atSecond 1)).machine.tree.get? place = none := by
    cases place with
    | nil => simp at hbelow
    | cons => rfl
  obtain ⟨hcopies, _, _⟩ := directory_collapses hordered rfl hrun
    ((stat_eq_directory_iff (by decide)).1 hstat) hempty
  obtain ⟨destination, winner, data, hpath, hstat', hremains, hholds⟩ :=
    hcopies ⟨"a/b", atSecond 1, 1⟩ (by decide +kernel)
  have hplace : copyPlace ["x"] "a/b" = ["b", "a", "x"] := by decide +kernel
  exact ⟨w', hrun, destination, winner, data, hpath, hplace ▸ hstat', hremains, hholds⟩

/-- The second of the two objects is lost: it is listed and is said to be up to date, but its file
    has the contents of the first one. -/
theorem directory_loses_object : ∃ w',
    (directory ObjectStore.storage "gs://b" "d" "x").run (colliding (atSecond 1)) =
      (.ok ⟨["a//b"], ["a/b"]⟩, w') ∧
    (colliding (atSecond 1)).remote.below "gs://b" "d" =
      [⟨"a//b", atSecond 1, 1⟩, ⟨"a/b", atSecond 1, 1⟩] ∧
    (colliding (atSecond 1)).remote.fetch "gs://b" "d" ⟨"a/b", atSecond 1, 1⟩ = .ok [2] ∧
    localPath "x" "a//b" = .ok "x/a//b" ∧ localPath "x" "a/b" = .ok "x/a/b" ∧
    w'.machine.tree.stat [] "x/a//b" =
      .ok (["b", "a", "x"], .file ⟨[1], (atSecond 1).toInstant, false⟩) ∧
    w'.machine.tree.stat [] "x/a/b" =
      .ok (["b", "a", "x"], .file ⟨[1], (atSecond 1).toInstant, false⟩) :=
  Action.exists_run (by decide +kernel) (by decide +kernel)

end Sync

end StepRunner
