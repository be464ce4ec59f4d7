import Mathlib.Logic.Relation
import StepRunner.Proofs.Storage.Memory
import StepRunner.Proofs.Sync.Idempotence
import StepRunner.Proofs.Sync.Place

namespace StepRunner

open FileTree

/-- A storage that lists and gives out what is in the store, if it does not fail, and leaves the
    store as it is. -/
structure ObjectStore.IsServedBy (base dir : String) (storage : Storage ObjectStore) : Prop where
  writesOnlyGiven : storage.WritesOnlyGiven
  failsInGiven : storage.FailsInGiven
  list_keeps : (storage.list base dir).KeepsRemote ObjectStore.objects
  download_keeps (object : RemoteObject) (path : String) :
    (storage.download base dir object path).KeepsRemote ObjectStore.objects
  listed {listed : List RemoteObject} {w w' : World ObjectStore}
    (run : (storage.list base dir).run w = (.ok listed, w')) : listed = w.remote.below base dir
  downloaded {object : RemoteObject} {path : String} {place : Location} {written : FileData}
    {w w' : World ObjectStore} (given : w.machine.LeadsToFile path place)
    (run : (storage.download base dir object path).run w = (.ok (), w'))
    (left : w'.machine.tree.get? place = some (.file written)) :
    ∃ stored, w.remote.get? (ObjectStore.keyOf base dir object.relativePath) = some stored ∧
      written.contents = stored.contents

theorem ObjectStore.storage_isServedBy (base dir : String) :
    IsServedBy base dir ObjectStore.storage where
  writesOnlyGiven := storage_writesOnlyGiven
  failsInGiven := storage_failsInGiven
  list_keeps w := by rw [storage_list]
  download_keeps object path w := by
    rw [storage_download]
    cases w.remote.fetch base dir object <;> rfl
  listed run := by
    rw [storage_list] at run
    cases run
    rfl
  downloaded := by
    intro object path place written w w' ⟨data, hgiven⟩ run left
    cases hfetch : w.remote.fetch base dir object with
    | error e =>
      rw [storage_download, hfetch] at run
      cases run
    | ok contents =>
      obtain ⟨tree, hdownload, _, hnew⟩ := storage_download_ok hfetch hgiven
      rw [hdownload] at run
      cases run
      rw [hnew] at left
      cases left
      exact exists_of_fetch hfetch

namespace Sync

open ObjectStore

variable {storage : Storage ObjectStore} {base dir localDir : String} {object : RemoteObject}
  {w w' : World ObjectStore} {e : StorageError} {report report' : SyncReport}
  {here root : Location} {listed done rest : List RemoteObject} {keys : String → Prop}

/-- What can happen to a machine and a store: an object comes to the store, under one of some keys
    and newer than the one that it replaces; a sync, of a storage that serves the store, which may
    succeed or fail; or something that touches neither local files nor the objects in the store. -/
inductive Event (keys : String → Prop) (base dir localDir : String) :
    World ObjectStore → World ObjectStore → Prop
  | put {w base' dir' relativePath new} (known : keys (keyOf base' dir' relativePath))
    (newer : ∀ old, w.remote.get? (keyOf base' dir' relativePath) = some old →
      old.updated.toInstant < new.updated.toInstant) :
    Event keys base dir localDir w { w with remote := w.remote.put base' dir' relativePath new }
  | sync {w w' storage result} (serves : IsServedBy base dir storage)
    (run : (directory storage base dir localDir).run w = (result, w')) :
    Event keys base dir localDir w w'
  | elsewhere {w w' : World ObjectStore} (local_ : w.machine.SameFiles w'.machine)
    (remote : w'.remote.objects = w.remote.objects) : Event keys base dir localDir w w'

/-- `Mirrors keys base dir localDir here root w` says that each file in or below the local directory
    is the copy of an object in the store, or of an older one that it replaced: its time is that of
    the object only if its contents are. -/
structure Mirrors (keys : String → Prop) (base dir localDir : String) (here root : Location)
    (w : World ObjectStore) : Prop where
  ready : IsReady here root localDir w.machine
  noLinks : w.machine.tree.HasNoLinks root
  ordered : IsOrdered w.remote.objects
  known : ∀ key stored, (key, stored) ∈ w.remote.objects → keys key
  files : ∀ place data, root <:+ place → w.machine.tree.get? place = some (.file data) →
    ∃ key stored relativePath destination, (key, stored) ∈ w.remote.objects ∧
      pathBelow? base dir key = some relativePath ∧
      localPath localDir relativePath = .ok destination ∧
      place = copyPlace root relativePath ∧
      data.modified ≤ stored.updated.toInstant ∧
      (data.modified = stored.updated.toInstant → data.contents = stored.contents)

theorem object_remote {result : Except StorageError SyncReport}
    (hserves : IsServedBy base dir storage)
    (hrun : (Sync.object storage base dir localDir report object).run w = (result, w')) :
    w'.remote.objects = w.remote.objects :=
  (object_keepsRemote (hserves.download_keeps object)).of_run hrun

/-- The key of an object whose copy is found. -/
theorem keyOf_of_stat {t : FileTree} {destination key : String} {place : Location} {data : FileData}
    (hkey : pathBelow? base dir key = some object.relativePath)
    (hpath : localPath localDir object.relativePath = .ok destination)
    (hstat : t.stat here destination = .ok (place, .file data)) :
    keyOf base dir object.relativePath = key := by
  obtain ⟨hne, hnormal, _⟩ := localPath_eq_ok_iff.1 hpath
  have hslash := Disk.not_endsInSlash hstat
  rw [Disk.endsInSlash, getLast?_destination hpath, decide_eq_false_iff_not] at hslash
  exact keyOf_pathBelow hkey hne (components_eq_map hnormal).1 hslash

namespace Mirrors

theorem put {base' dir' relativePath : String} {new : StoredObject}
    (h : Mirrors keys base dir localDir here root w)
    (hknown : keys (keyOf base' dir' relativePath))
    (hnewer : ∀ old, w.remote.get? (keyOf base' dir' relativePath) = some old →
      old.updated.toInstant < new.updated.toInstant) :
    Mirrors keys base dir localDir here root
      { w with remote := w.remote.put base' dir' relativePath new } where
  ready := h.ready
  noLinks := h.noLinks
  ordered := h.ordered.insertAt
  known key stored hmem := by
    rcases (mem_insertAt h.ordered).1 hmem with ⟨rfl, _⟩ | ⟨_, hmem⟩
    · exact hknown
    · exact h.known key stored hmem
  files place data hbelow hfile := by
    obtain ⟨key, stored, path, destination, hmem, hpath, hlocal, hplace, hle, heq⟩ :=
      h.files place data hbelow hfile
    by_cases hkey : key = keyOf base' dir' relativePath
    · have hlt := hnewer stored (hkey ▸ get?_of_mem h.ordered hmem)
      have hlt' : data.modified < new.updated.toInstant := Int.lt_of_le_of_lt hle hlt
      refine ⟨key, new, path, destination, (mem_insertAt h.ordered).2 (Or.inl ⟨hkey, rfl⟩), hpath,
        hlocal, hplace, Int.le_of_lt hlt', fun hsame => ?_⟩
      rw [hsame] at hlt'
      exact absurd hlt' (Int.lt_irrefl _)
    · exact ⟨key, stored, path, destination, (mem_insertAt h.ordered).2 (Or.inr ⟨hkey, hmem⟩), hpath,
        hlocal, hplace, hle, heq⟩

/-- New directories do not matter. -/
theorem of_grows {allowed : Location → Prop} (h : Mirrors keys base dir localDir here root w)
    (hgrows : w.machine.tree.Grows allowed w'.machine.tree)
    (hwork : w'.machine.workDir = w.machine.workDir)
    (hremote : w'.remote.objects = w.remote.objects) :
    Mirrors keys base dir localDir here root w' where
  ready := h.ready.of_grows hgrows hwork
  noLinks := h.noLinks.of_grows hgrows
  ordered := hremote ▸ h.ordered
  known := hremote ▸ h.known
  files place data hbelow hfile := by
    rw [hremote]
    exact h.files place data hbelow (hgrows.get?_eq (by simp) hfile)

/-- A copy that lands is that of an object in the store. -/
theorem of_lands {grown : FileTree} {allowed : Location → Prop} {destination : String}
    {place : Location} {written : FileData} {stored : StoredObject} {key : String}
    (h : Mirrors keys base dir localDir here root w)
    (hmem : (key, stored) ∈ w.remote.objects)
    (hkey : pathBelow? base dir key = some object.relativePath)
    (hpath : localPath localDir object.relativePath = .ok destination)
    (hgrows : w.machine.tree.Grows allowed grown)
    (hlands : Lands grown w'.machine.tree here destination place
      { written with modified := stored.updated.toInstant })
    (hcontents : written.contents = stored.contents)
    (hready : IsReady here root localDir w'.machine)
    (hremote : w'.remote.objects = w.remote.objects) :
    Mirrors keys base dir localDir here root w' where
  ready := hready
  noLinks := hlands.hasNoLinks (h.noLinks.of_grows hgrows)
  ordered := hremote ▸ h.ordered
  known := hremote ▸ h.known
  files other data hbelow hfile := by
    rw [hremote]
    by_cases hother : other = place
    · subst hother
      rw [hlands.get?_eq] at hfile
      cases hfile
      have hplace := place_of_find hpath (h.ready.names.mono hgrows.keeps)
        (h.noLinks.of_grows hgrows) hlands.find_eq
      rw [place_targetAt] at hplace
      exact ⟨key, stored, object.relativePath, destination, hmem, hkey, hpath, hplace,
        Instant.le_refl _, fun _ => hcontents⟩
    · rw [hlands.off other hother] at hfile
      exact h.files other data hbelow (hgrows.get?_eq (by simp) hfile)

/-- Syncing one object of the store keeps files in or below the local directory copies. -/
theorem step (hserves : IsServedBy base dir storage)
    (h : Mirrors keys base dir localDir here root w)
    (hlisted : object ∈ w.remote.below base dir)
    (hrun : (Sync.object storage base dir localDir report object).run w = (.ok report', w')) :
    Mirrors keys base dir localDir here root w' ∧ w'.remote.objects = w.remote.objects := by
  have hremote := object_remote hserves hrun
  refine ⟨?_, hremote⟩
  obtain ⟨hready, destination, hpath, ⟨_, _, log, rfl⟩ | hfetched⟩ :=
    object_ok_cases hserves.writesOnlyGiven h.ready hrun
  · have hgrows : w.machine.tree.Grows (fun _ => False) w.machine.tree := .refl _
    exact h.of_grows hgrows rfl hremote
  obtain ⟨grown, place, written, _, _, hgrows, hlands, hdownloads, _⟩ := hfetched
  obtain ⟨key, stored, hmem, hkey, hupdated, _⟩ := mem_below.1 hlisted
  obtain ⟨path, given, tree, _, _, hstat, hdownload, hleft⟩ := hdownloads
  have hgiven : Machine.LeadsToFile { w.machine with tree } path given := ⟨_, hstat⟩
  obtain ⟨found, hfound, hcontents⟩ := hserves.downloaded hgiven hdownload hleft
  rw [keyOf_of_stat hkey hpath hlands.stat_eq] at hfound
  obtain rfl := h.ordered.eq_of_mem hmem (mem_of_get? hfound)
  rw [hupdated] at hlands
  exact h.of_lands hmem hkey hpath hgrows hlands hcontents hready hremote

theorem objects_step (hserves : IsServedBy base dir storage)
    (h : Mirrors keys base dir localDir here root w)
    (hlisted : ∀ object ∈ rest, object ∈ w.remote.below base dir)
    (hrun : (Sync.objects storage base dir localDir report rest).run w = (.ok report', w')) :
    Mirrors keys base dir localDir here root w' ∧ w'.remote.objects = w.remote.objects := by
  refine objects_ok (fun _ _ now => Mirrors keys base dir localDir here root now ∧
    now.remote.objects = w.remote.objects) (fun hsplit ⟨hinv, hsame⟩ hobject => ?_) hrun
    (List.nil_append _).symm ⟨h, rfl⟩
  have hlisted' := hlisted _ (hsplit ▸ List.mem_append_right _ List.mem_cons_self)
  rw [← below_congr hsame] at hlisted'
  obtain ⟨hinv', hsame'⟩ := hinv.step hserves hlisted' hobject
  exact ⟨hinv', hsame'.trans hsame⟩

/-- Whatever becomes of a sync, files in or below the local directory stay copies. -/
theorem sync {result : Except StorageError SyncReport} (hserves : IsServedBy base dir storage)
    (h : Mirrors keys base dir localDir here root w)
    (hrun : (directory storage base dir localDir).run w = (result, w')) :
    Mirrors keys base dir localDir here root w' ∧ w'.remote.objects = w.remote.objects := by
  have hwork : w.machine.tree.get? w.machine.workDir = some .directory := by
    rw [h.ready.workDir]
    exact h.ready.isDirectory
  have hlistingRemote {result : Except StorageError (List RemoteObject)} {w₁ : World ObjectStore}
      (hlisting : (listing storage base dir localDir).run w = (result, w₁)) :
      w₁.remote.objects = w.remote.objects :=
    (listing_keepsRemote hserves.list_keeps).of_run hlisting
  have hstart {listed : List RemoteObject} {w₁ : World ObjectStore}
      (hlisting : (listing storage base dir localDir).run w = (.ok listed, w₁)) :
      Mirrors keys base dir localDir here root w₁ ∧
        ∀ object ∈ listed, object ∈ w₁.remote.below base dir := by
    obtain ⟨_, hready, hgrows⟩ := isReady_of_listing hserves.writesOnlyGiven hwork hlisting
    refine ⟨h.of_grows hgrows hready.workDir (hlistingRemote hlisting), ?_⟩
    intro object hmem
    obtain ⟨log, tree, _, hlist⟩ := listing_ok hlisting
    rw [hserves.listed hlist] at hmem
    rwa [below_congr (hlistingRemote hlisting)]
  cases result with
  | ok report =>
    obtain ⟨listed, w₁, w₂, log, hlisting, hobjects, rfl⟩ := directory_ok hrun
    obtain ⟨hmirrors, hlisted⟩ := hstart hlisting
    obtain ⟨hmirrors', hsame⟩ := hmirrors.objects_step hserves hlisted hobjects
    have hgrows : w₂.machine.tree.Grows (fun _ => False) w₂.machine.tree := .refl _
    exact ⟨hmirrors'.of_grows hgrows rfl rfl, hsame.trans (hlistingRemote hlisting)⟩
  | error e =>
    rcases directory_error hrun with hlisting | ⟨listed, w₁, hlisting, hobjects⟩
    · obtain ⟨hgrows, hsame⟩ := grows_of_listing_error hserves.failsInGiven hwork hlisting
      exact ⟨h.of_grows hgrows hsame (hlistingRemote hlisting), hlistingRemote hlisting⟩
    obtain ⟨hmirrors, hlisted⟩ := hstart hlisting
    obtain ⟨before, failing, after, middle, w₂, rfl, hbefore, hfailing⟩ := objects_error hobjects
    obtain ⟨hmirrors', hsame⟩ := hmirrors.objects_step hserves
      (fun object hmem => hlisted object (List.mem_append_left _ hmem)) hbefore
    obtain ⟨hready, hgrows, _⟩ := object_error_cases hserves.writesOnlyGiven hserves.failsInGiven
      hmirrors'.ready hfailing
    have hremote := object_remote hserves hfailing
    exact ⟨hmirrors'.of_grows hgrows (hready.workDir.trans hmirrors'.ready.workDir.symm) hremote,
      hremote.trans (hsame.trans (hlistingRemote hlisting))⟩

/-- Whatever happens, files in or below the local directory stay copies. -/
theorem event (h : Mirrors keys base dir localDir here root w)
    (hevent : Event keys base dir localDir w w') :
    Mirrors keys base dir localDir here root w' := by
  cases hevent with
  | put known newer => exact h.put known newer
  | sync serves run => exact (h.sync serves run).1
  | elsewhere local_ remote =>
    have hgrows : w.machine.tree.Grows (fun _ => False) w'.machine.tree := local_.tree.grows
    exact h.of_grows hgrows local_.workDir remote

theorem history (h : Mirrors keys base dir localDir here root w)
    (hhistory : Relation.ReflTransGen (Event keys base dir localDir) w w') :
    Mirrors keys base dir localDir here root w' := by
  induction hhistory with
  | refl => exact h
  | tail _ hevent ih => exact ih.event hevent

/-- With nothing in the local directory, nothing is there that is no copy. -/
theorem of_empty (hwork : w.machine.tree.get? w.machine.workDir = some .directory)
    (hroot : w.machine.tree.NamesDirectory w.machine.workDir localDir root)
    (hempty : ∀ place, root <:+ place → place ≠ root → w.machine.tree.get? place = none)
    (hordered : IsOrdered w.remote.objects)
    (hknown : ∀ key stored, (key, stored) ∈ w.remote.objects → keys key) :
    Mirrors keys base dir localDir w.machine.workDir root w := by
  have hisDirectory := hroot.get?_eq hwork
  have hnothing {place : Location} {entry : Entry} (hbelow : root <:+ place)
      (hentry : w.machine.tree.get? place = some entry) : entry = .directory := by
    by_cases hplace : place = root
    · rw [hplace, hisDirectory] at hentry
      exact (Option.some.inj hentry).symm
    · rw [hempty place hbelow hplace] at hentry
      cases hentry
  exact
    { ready := ⟨rfl, hwork, hroot⟩
      noLinks := fun place text hbelow hlink => by cases hnothing hbelow hlink
      ordered := hordered
      known := hknown
      files := fun place data hbelow hfile => by cases hnothing hbelow hfile }

/-- A copy that is at least as new as its object has the contents and the time of the object. -/
theorem eq_of_newer {key path destination : String} {stored : StoredObject} {place : Location}
    {data : FileData} (h : Mirrors keys base dir localDir here root w)
    (hkeys : ∀ key key' path path', keys key → keys key' →
      pathBelow? base dir key = some path → pathBelow? base dir key' = some path' →
      Path.components path = Path.components path' → key = key')
    (hmem : (key, stored) ∈ w.remote.objects) (hpath : pathBelow? base dir key = some path)
    (hlocal : localPath localDir path = .ok destination)
    (hstat : w.machine.tree.stat here destination = .ok (place, .file data))
    (hnewer : stored.updated.toInstant ≤ data.modified) :
    data.contents = stored.contents ∧ data.modified = stored.updated.toInstant := by
  have hplace := place_of_find hlocal h.ready.names h.noLinks (stat_eq_ok_iff.1 hstat)
  simp only [Target.place] at hplace
  -- The file is the copy of an object with the same path, thus of the same object.
  obtain ⟨key', stored', path', destination', hmem', hpath', hlocal', hplace', holder, hcontents⟩ :=
    h.files place data (hplace ▸ suffix_copyPlace root path) (Disk.get?_of_stat hstat)
  have hcomponents : Path.components path = Path.components path' :=
    (copyPlace_inj (localPath_eq_ok_iff.1 hlocal).2.1 (localPath_eq_ok_iff.1 hlocal').2.1).1
      (hplace.symm.trans hplace')
  obtain rfl := hkeys key key' path path' (h.known key stored hmem)
    (h.known key' stored' hmem') hpath hpath' hcomponents
  obtain rfl := h.ordered.eq_of_mem hmem hmem'
  have htime : data.modified = stored.updated.toInstant := by
    have hle : stored.updated.toInstant.nanoseconds ≤ data.modified.nanoseconds := hnewer
    have hge : data.modified.nanoseconds ≤ stored.updated.toInstant.nanoseconds := holder
    exact congrArg Instant.mk (Int.le_antisymm hge hle)
  exact ⟨hcontents htime, htime⟩

end Mirrors

/-- Whatever has happened to a local directory that was empty in the beginning and to a store: when
    a sync of the store succeeds, each object of the store has a copy, with just its contents and
    its time. Syncs before it may have failed anywhere. Two objects of the directory must not have
    the same path but for dots and slashes that do not count. -/
theorem directory_mirrors {w₁ w₂ : World ObjectStore}
    (hkeys : ∀ key key' path path', keys key → keys key' →
      pathBelow? base dir key = some path → pathBelow? base dir key' = some path' →
      Path.components path = Path.components path' → key = key')
    (hwork : w.machine.tree.get? w.machine.workDir = some .directory)
    (hroot : w.machine.tree.NamesDirectory w.machine.workDir localDir root)
    (hempty : ∀ place, root <:+ place → place ≠ root → w.machine.tree.get? place = none)
    (hordered : IsOrdered w.remote.objects)
    (hknown : ∀ key stored, (key, stored) ∈ w.remote.objects → keys key)
    (hhistory : Relation.ReflTransGen (Event keys base dir localDir) w w₁)
    (hserves : IsServedBy base dir storage)
    (hrun : (directory storage base dir localDir).run w₁ = (.ok report, w₂)) :
    ∀ key stored path, w₂.remote.get? key = some stored → pathBelow? base dir key = some path →
      ∃ destination place data, localPath localDir path = .ok destination ∧
        w₂.machine.tree.stat w.machine.workDir destination = .ok (place, .file data) ∧
        data.contents = stored.contents ∧ data.modified = stored.updated.toInstant := by
  have hbegin : Mirrors keys base dir localDir w.machine.workDir root w :=
    .of_empty hwork hroot hempty hordered hknown
  have hbefore := hbegin.history hhistory
  obtain ⟨hafter, hsame⟩ := hbefore.sync hserves hrun
  intro key stored path hget hpath
  have hmem := mem_of_get? hget
  obtain ⟨listed, w₃, _, _, hlisting, _, _⟩ := directory_ok hrun
  obtain ⟨log, tree, _, hlist⟩ := listing_ok hlisting
  have hhere : w₁.machine.tree.get? w₁.machine.workDir = some .directory := by
    rw [hbefore.ready.workDir]
    exact hbefore.ready.isDirectory
  obtain ⟨_, _, hcurrent⟩ :=
    allCurrent_of_directory hserves.writesOnlyGiven hhere hlisting hrun
  have hobject : (⟨path, stored.updated, stored.contents.length⟩ : RemoteObject) ∈ listed := by
    rw [hserves.listed hlist, below_congr hsame.symm]
    exact mem_below.2 ⟨key, stored, hmem, hpath, rfl, rfl⟩
  obtain ⟨destination, place, data, hlocal, hstat, hnewer⟩ := hcurrent _ hobject
  rw [hbefore.ready.workDir] at hstat
  exact ⟨destination, place, data, hlocal, hstat,
    hafter.eq_of_newer hkeys hmem hpath hlocal hstat hnewer⟩

/-- An object comes to the store, is synced and is replaced before the last sync. -/
theorem directory_mirrors_of_replaced : ∃ w₁ w₂ : World ObjectStore,
    Relation.ReflTransGen (Event (· = "gs://b/d/a") "gs://b" "d" "x")
      (trial (FileTree.empty.put ["x"] .directory) []) w₁ ∧
    (directory ObjectStore.storage "gs://b" "d" "x").run w₁ = (.ok ⟨["a"], []⟩, w₂) ∧
    ∃ destination place data, localPath "x" "a" = .ok destination ∧
      w₂.machine.tree.stat [] destination = .ok (place, .file data) ∧
      data.contents = [2] ∧ data.modified = (atSecond 2).toInstant := by
  have hkey : keyOf "gs://b" "d" "a" = "gs://b/d/a" := by decide +kernel
  obtain ⟨w₀, hfirst, hstored, hsecond, hget⟩ : ∃ w₀,
      (directory ObjectStore.storage "gs://b" "d" "x").run
        ⟨(trial (FileTree.empty.put ["x"] .directory) []).machine,
          ({} : ObjectStore).put "gs://b" "d" "a" ⟨[1], atSecond 1⟩⟩ = (.ok ⟨["a"], []⟩, w₀) ∧
      w₀.remote.get? "gs://b/d/a" = some ⟨[1], atSecond 1⟩ ∧
      ((directory ObjectStore.storage "gs://b" "d" "x").run
        ⟨w₀.machine, w₀.remote.put "gs://b" "d" "a" ⟨[2], atSecond 2⟩⟩).1 = .ok ⟨["a"], []⟩ ∧
      ((directory ObjectStore.storage "gs://b" "d" "x").run
        ⟨w₀.machine, w₀.remote.put "gs://b" "d" "a" ⟨[2], atSecond 2⟩⟩).2.remote.get? "gs://b/d/a" =
          some ⟨[2], atSecond 2⟩ :=
    Action.exists_run (by decide +kernel) (by decide +kernel)
  obtain ⟨w₂, hrun, hreplaced⟩ : ∃ w₂, (directory ObjectStore.storage "gs://b" "d" "x").run
        ⟨w₀.machine, w₀.remote.put "gs://b" "d" "a" ⟨[2], atSecond 2⟩⟩ = (.ok ⟨["a"], []⟩, w₂) ∧
      w₂.remote.get? "gs://b/d/a" = some ⟨[2], atSecond 2⟩ :=
    Action.exists_run hsecond hget
  have hhistory : Relation.ReflTransGen (Event (· = "gs://b/d/a") "gs://b" "d" "x")
      (trial (FileTree.empty.put ["x"] .directory) [])
      ⟨w₀.machine, w₀.remote.put "gs://b" "d" "a" ⟨[2], atSecond 2⟩⟩ := by
    refine .tail (.tail (.single (.put hkey ?_)) (.sync (storage_isServedBy _ _) hfirst))
      (.put hkey ?_)
    · intro old hold
      rw [hkey] at hold
      cases hold
    · intro old hold
      rw [hkey, hstored] at hold
      cases hold
      decide +kernel
  have hroot : (FileTree.empty.put ["x"] .directory).NamesDirectory [] "x" ["x"] :=
    (stat_eq_directory_iff (by decide)).1 (by decide +kernel)
  have hempty (place : Location) (hbelow : ["x"] <:+ place) (hne : place ≠ ["x"]) :
      (FileTree.empty.put ["x"] .directory).get? place = none := by
    rw [get?_put (by decide), if_neg hne]
    cases place with
    | nil => simp at hbelow
    | cons => rfl
  have hordered : IsOrdered (trial (FileTree.empty.put ["x"] .directory) []).remote.objects := .nil
  refine ⟨_, w₂, hhistory, hrun, ?_⟩
  exact directory_mirrors (fun key key' _ _ h h' _ _ _ => h.trans h'.symm) rfl hroot hempty hordered
    (fun _ _ hmem => absurd hmem List.not_mem_nil) hhistory (storage_isServedBy _ _) hrun
    "gs://b/d/a" ⟨[2], atSecond 2⟩ "a" hreplaced (by decide +kernel)

end Sync

end StepRunner
