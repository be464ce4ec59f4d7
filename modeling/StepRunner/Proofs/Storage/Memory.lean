import Mathlib.Data.String.Basic
import StepRunner.Proofs.Storage.Contract
import StepRunner.Proofs.Storage.Joining
import StepRunner.Storage.Memory

namespace StepRunner

namespace ObjectStore

open FileTree

variable {base dir path : String} {object : RemoteObject} {place : Location}
  {w w' : World ObjectStore}

/-- What is given out is what is kept. -/
theorem exists_of_fetch {store : ObjectStore} {contents : List UInt8}
    (h : store.fetch base dir object = .ok contents) :
    ∃ stored, store.get? (keyOf base dir object.relativePath) = some stored ∧
      contents = stored.contents := by
  unfold fetch at h
  split at h
  · cases h
  simp only at h
  split at h
  · next hget =>
    cases h
    exact ⟨_, hget, rfl⟩
  · cases h

theorem storage_list (base dir : String) (w : World ObjectStore) :
    (storage.list base dir).run w = (.ok (w.remote.below base dir),
      { w with remote := { w.remote with listCalls := w.remote.listCalls + 1 } }) := by
  simp only [storage]
  rw [Action.run_bind, Action.run_modify]
  rfl

theorem storage_download (base dir : String) (object : RemoteObject) (path : String)
    (w : World ObjectStore) : (storage.download base dir object path).run w =
      match w.remote.fetch base dir object with
      | .error e => (.error e,
          { w with remote := { w.remote with downloadCalls := w.remote.downloadCalls + 1 } })
      | .ok contents =>
        (Action.onDisk StorageError.io fun here =>
          Disk.writeFile w.machine.now here path contents).run
          { w with remote := { w.remote with downloadCalls := w.remote.downloadCalls + 1 } } := by
  simp only [storage]
  rw [Action.run_bind, Action.run_modify]
  simp only
  rw [Action.run_bind, Action.run_get]
  simp only
  have hsame : ({ w.remote with downloadCalls := w.remote.downloadCalls + 1 } : ObjectStore).fetch
      base dir object = w.remote.fetch base dir object := rfl
  rw [hsame]
  cases w.remote.fetch base dir object <;> rfl

/-- Whatever comes of a download, the store has only counted it. -/
theorem storage_download_remote (base dir : String) (object : RemoteObject) (path : String)
    (w : World ObjectStore) : ((storage.download base dir object path).run w).2.remote =
      { w.remote with downloadCalls := w.remote.downloadCalls + 1 } := by
  rw [storage_download]
  cases w.remote.fetch base dir object <;> rfl

/-- A download of an object that the store gives out writes its contents to the file that it is
    given. -/
theorem storage_download_ok {contents : List UInt8} {data : FileData}
    (hfetch : w.remote.fetch base dir object = .ok contents)
    (hgiven : w.machine.tree.stat w.machine.workDir path = .ok (place, .file data)) :
    ∃ tree, (storage.download base dir object path).run w = (.ok (),
        ⟨{ w.machine with tree }, { w.remote with downloadCalls := w.remote.downloadCalls + 1 }⟩) ∧
      SameOff place w.machine.tree tree ∧
      tree.get? place = some (.file { data with contents, modified := w.machine.now }) := by
  obtain ⟨tree, hwrite, hoff, hnew⟩ := Disk.writeFile_ok hgiven w.machine.now contents
  refine ⟨tree, ?_, hoff, hnew⟩
  rw [storage_download, hfetch]
  exact Action.run_onDisk_eq_ok.2 ⟨tree, hwrite, rfl⟩

theorem storage_writesOnlyGiven : storage.WritesOnlyGiven where
  list run := by
    rw [storage_list] at run
    cases run
    exact ⟨rfl, .refl _⟩
  download := by
    intro base dir path object place w w' ⟨data, hgiven⟩ run
    cases hfetch : w.remote.fetch base dir object with
    | error e =>
      rw [storage_download, hfetch] at run
      cases run
    | ok contents =>
      obtain ⟨tree, hdownload, hoff, hnew⟩ := storage_download_ok hfetch hgiven
      rw [hdownload] at run
      cases run
      exact ⟨⟨rfl, hoff⟩, _, hnew⟩

theorem storage_failsInGiven : storage.FailsInGiven where
  list run := by
    rw [storage_list] at run
    cases run
  download := by
    intro base dir path object place e w w' ⟨data, hgiven⟩ run
    cases hfetch : w.remote.fetch base dir object with
    | error e =>
      rw [storage_download, hfetch] at run
      cases run
      refine ⟨⟨rfl, fun _ _ => rfl⟩, ?_⟩
      rw [Disk.get?_of_stat hgiven]
      simp
    | ok contents =>
      obtain ⟨tree, hdownload, _⟩ := storage_download_ok hfetch hgiven
      rw [hdownload] at run
      cases run

theorem storage_lists (base dir : String) (w : World ObjectStore) :
    storage.Lists base dir w (w.remote.below base dir) :=
  fun log => ⟨_, storage_list base dir ⟨{ w.machine with log }, w.remote⟩, rfl, .refl _⟩

/-- The path of an object below a directory, by its key. -/
def pathBelow? (base dir key : String) : Option String :=
  (Text.dropStart? ((Storage.joinUrl base dir).toList ++ ['/']) key.toList).map String.ofList

/-- The key of an object below a directory is found from its path, unless there are slashes at the
    ends of the path. -/
theorem keyOf_pathBelow {key relativePath : String}
    (h : pathBelow? base dir key = some relativePath) (hne : relativePath ≠ "")
    (hstart : relativePath.toList.head? ≠ some '/')
    (hend : relativePath.toList.getLast? ≠ some '/') : keyOf base dir relativePath = key := by
  obtain ⟨chars, hchars, rfl⟩ := Option.map_eq_some_iff.1 h
  rw [String.toList_ofList] at hstart hend
  have hchars' : chars ≠ [] := by
    rintro rfl
    exact hne rfl
  rw [keyOf, Storage.joinUrl_joinUrl base dir hchars' hstart hend,
    ← Text.dropStart?_eq_some_iff.1 hchars, String.ofList_toList]

/-- What is listed below a directory, with the keys. -/
def listing (store : ObjectStore) (base dir : String) : List (String × RemoteObject) :=
  store.objects.filterMap fun (key, stored) => (pathBelow? base dir key).map fun relativePath =>
    (key, ⟨relativePath, stored.updated, stored.contents.length⟩)

theorem below_eq_map (store : ObjectStore) (base dir : String) :
    store.below base dir = (store.listing base dir).map (·.2) := by
  rw [below, listing, List.map_filterMap]
  simp [pathBelow?, Function.comp_def]

theorem mem_listing {store : ObjectStore} {key : String} :
    (key, object) ∈ store.listing base dir ↔ ∃ stored, (key, stored) ∈ store.objects ∧
      pathBelow? base dir key = some object.relativePath ∧ object.updated = stored.updated ∧
      object.size = stored.contents.length := by
  rw [listing, List.mem_filterMap]
  constructor
  · rintro ⟨⟨key', stored⟩, hmem, hfound⟩
    obtain ⟨relativePath, hpath, heq⟩ := Option.map_eq_some_iff.1 hfound
    cases heq
    exact ⟨stored, hmem, hpath, rfl, rfl⟩
  · rintro ⟨stored, hmem, hpath, hupdated, hsize⟩
    refine ⟨(key, stored), hmem, Option.map_eq_some_iff.2 ⟨object.relativePath, hpath, ?_⟩⟩
    rw [← hupdated, ← hsize]

/-- What is listed of a directory are the objects with paths below it. -/
theorem mem_below {store : ObjectStore} : object ∈ store.below base dir ↔
    ∃ key stored, (key, stored) ∈ store.objects ∧
      pathBelow? base dir key = some object.relativePath ∧ object.updated = stored.updated ∧
      object.size = stored.contents.length := by
  simp only [below_eq_map, List.mem_map, Prod.exists, exists_eq_right, mem_listing]

theorem below_congr {store store' : ObjectStore} (h : store'.objects = store.objects) :
    store'.below base dir = store.below base dir := by
  rw [below, below, h]

/-- The store delivers what it lists if it gives out each of these objects, until an object comes or
    downloads are refused. -/
theorem storage_delivers {store : ObjectStore} {bytes : RemoteObject → List UInt8}
    (hfetch : ∀ object ∈ store.below base dir, store.fetch base dir object = .ok (bytes object)) :
    storage.Delivers base dir
      (fun now => now.objects = store.objects ∧ now.refusal = store.refusal)
      (store.below base dir) bytes where
  writesOnlyGiven := storage_writesOnlyGiven
  list := by
    intro w holds
    refine ⟨{ w with remote := { w.remote with listCalls := w.remote.listCalls + 1 } }, ?_, holds,
      ⟨rfl, .refl _⟩, rfl⟩
    rw [storage_list, below_congr holds.1]
  download := by
    intro w object path place data listed holds given
    have hfetched : w.remote.fetch base dir object = .ok (bytes object) := by
      rw [← hfetch object listed]
      simp only [fetch, ObjectStore.get?, holds.1, holds.2]
    obtain ⟨tree, hdownload, hoff, hnew⟩ := storage_download_ok hfetched given
    exact ⟨_, _, hdownload, holds, ⟨rfl, hoff⟩, rfl, hnew⟩

variable {key other : String} {stored new : StoredObject} {entries : List (String × StoredObject)}

/-- Objects are kept in the order of their keys, each under a key of its own. -/
def IsOrdered (entries : List (String × StoredObject)) : Prop :=
  entries.Pairwise fun first second => first.1 < second.1

theorem IsOrdered.eq_of_mem (h : IsOrdered entries) (hstored : (key, stored) ∈ entries)
    (hnew : (key, new) ∈ entries) : stored = new := by
  induction entries with
  | nil => cases hstored
  | cons first rest ih =>
    obtain ⟨hfirst, hrest⟩ := List.pairwise_cons.1 h
    rcases List.mem_cons.1 hstored with heq | hstored
    · rcases List.mem_cons.1 hnew with heq' | hnew
      · exact congrArg Prod.snd (heq.trans heq'.symm)
      · have hlt := hfirst _ hnew
        rw [← heq] at hlt
        exact absurd hlt (lt_irrefl key)
    · rcases List.mem_cons.1 hnew with heq' | hnew
      · have hlt := hfirst _ hstored
        rw [← heq'] at hlt
        exact absurd hlt (lt_irrefl key)
      · exact ih hrest hstored hnew

theorem mem_of_get? {store : ObjectStore} (h : store.get? key = some stored) :
    (key, stored) ∈ store.objects := by
  obtain ⟨before, after, heq, _⟩ := List.lookup_eq_some_iff.1 h
  rw [heq]
  simp

theorem get?_of_mem {store : ObjectStore} (hordered : IsOrdered store.objects)
    (h : (key, stored) ∈ store.objects) : store.get? key = some stored := by
  cases hget : store.get? key with
  | none =>
    rw [get?, List.lookup_eq_none_iff] at hget
    have hother := hget _ h
    simp at hother
  | some found => rw [hordered.eq_of_mem h (mem_of_get? hget)]

/-- Putting an object replaces the one under its key and no other. -/
theorem mem_insertAt (hordered : IsOrdered entries) : (other, stored) ∈ insertAt key new entries ↔
    (other = key ∧ stored = new) ∨ (other ≠ key ∧ (other, stored) ∈ entries) := by
  induction entries with
  | nil => simp [insertAt]
  | cons first rest ih =>
    obtain ⟨place, found⟩ := first
    obtain ⟨hfirst, hrest⟩ := List.pairwise_cons.1 hordered
    have hafter (hle : key ≤ place) (hmem : (other, stored) ∈ rest) : other ≠ key :=
      ne_of_gt (lt_of_le_of_lt hle (hfirst _ hmem))
    unfold insertAt
    split
    · next hlt =>
      simp only [List.mem_cons, Prod.mk.injEq]
      constructor
      · rintro (heq | ⟨rfl, rfl⟩ | hmem)
        · exact Or.inl heq
        · exact Or.inr ⟨ne_of_gt hlt, Or.inl ⟨rfl, rfl⟩⟩
        · exact Or.inr ⟨hafter (le_of_lt hlt) hmem, Or.inr hmem⟩
      · rintro (heq | ⟨_, hmem⟩)
        · exact Or.inl heq
        · exact Or.inr hmem
    split
    · next heq =>
      subst heq
      simp only [List.mem_cons, Prod.mk.injEq]
      constructor
      · rintro (heq | hmem)
        · exact Or.inl heq
        · exact Or.inr ⟨hafter (le_refl key) hmem, Or.inr hmem⟩
      · rintro (heq | ⟨hne, ⟨heq, _⟩ | hmem⟩)
        · exact Or.inl heq
        · exact absurd heq hne
        · exact Or.inr hmem
    · next hnlt hne =>
      rw [List.mem_cons, ih hrest]
      simp only [List.mem_cons, Prod.mk.injEq]
      constructor
      · rintro (⟨rfl, rfl⟩ | heq | ⟨hneq, hmem⟩)
        · exact Or.inr ⟨fun heq => hne heq.symm, Or.inl ⟨rfl, rfl⟩⟩
        · exact Or.inl heq
        · exact Or.inr ⟨hneq, Or.inr hmem⟩
      · rintro (heq | ⟨hneq, heq | hmem⟩)
        · exact Or.inr (Or.inl heq)
        · exact Or.inl heq
        · exact Or.inr (Or.inr ⟨hneq, hmem⟩)

theorem IsOrdered.insertAt (h : IsOrdered entries) : IsOrdered (insertAt key new entries) := by
  induction entries with
  | nil => exact List.pairwise_singleton _ _
  | cons first rest ih =>
    obtain ⟨place, found⟩ := first
    obtain ⟨hfirst, hrest⟩ := List.pairwise_cons.1 h
    unfold ObjectStore.insertAt
    split
    · next hlt =>
      refine List.pairwise_cons.2 ⟨fun entry hmem => ?_, h⟩
      rcases List.mem_cons.1 hmem with rfl | hmem
      · exact hlt
      · exact lt_trans hlt (hfirst entry hmem)
    split
    · next heq =>
      subst heq
      exact List.pairwise_cons.2 ⟨hfirst, hrest⟩
    · next hnlt hne =>
      refine List.pairwise_cons.2 ⟨fun entry hmem => ?_, ih hrest⟩
      obtain ⟨other, stored⟩ := entry
      rcases (mem_insertAt hrest).1 hmem with ⟨rfl, rfl⟩ | ⟨_, hmem⟩
      · exact lt_of_le_of_ne (not_lt.1 hnlt) (Ne.symm hne)
      · exact hfirst _ hmem

/-- Some seconds after the beginning of 1970. -/
def atSecond (second : Fin 60) : Timestamp where
  second := second
  nano := 0
  nano_lt := by decide
  leap := by simp
  earliest_le := by omega
  le_latest := by omega

/-- A world for trials: a machine with some files, seen from the root, and a store. -/
def trial (tree : FileTree) (objects : List (String × StoredObject)) : World ObjectStore where
  machine :=
    { tree
      workDir := []
      environment := []
      now := ⟨0⟩
      temporaryNames := [".tmp"]
      patience := id
      walkOrder := id
      span := none
      log := [] }
  remote := { objects }

end ObjectStore

end StepRunner
