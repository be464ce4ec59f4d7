import Mathlib.Data.List.Induction
import StepRunner.Proofs.Storage.Memory
import StepRunner.Proofs.Text.Utf8

namespace StepRunner

namespace ObjectStore

variable {base dir key path : String} {store : ObjectStore}

theorem pathBelow?_eq_some_iff : pathBelow? base dir key = some path ↔
    key.toList = (Storage.joinUrl base dir).toList ++ '/' :: path.toList := by
  rw [pathBelow?, Option.map_eq_some_iff]
  constructor
  · rintro ⟨chars, hchars, rfl⟩
    rw [Text.dropStart?_eq_some_iff.1 hchars, String.toList_ofList, List.append_assoc]
    rfl
  · intro heq
    refine ⟨path.toList, Text.dropStart?_eq_some_iff.2 ?_, String.ofList_toList⟩
    rw [heq, List.append_assoc]
    rfl

/-- Slashes at the ends of the parts of a key make no difference. -/
theorem keyOf_congr {base' dir' path' : String}
    (hbase : Storage.trimEndSlashes base.toList = Storage.trimEndSlashes base'.toList)
    (hdir : Storage.trimSlashes dir.toList = Storage.trimSlashes dir'.toList)
    (hpath : Storage.trimSlashes path.toList = Storage.trimSlashes path'.toList) :
    keyOf base dir path = keyOf base' dir' path' := by
  apply String.toList_injective
  simp only [keyOf, Storage.toList_joinUrl, Storage.addition, hbase, hdir, hpath]

/-- What is listed is in the order of the keys. -/
theorem pairwise_listing (h : IsOrdered store.objects) :
    (store.listing base dir).Pairwise fun first second => first.1 < second.1 := by
  refine h.filterMap _ fun first second hlt found hfound found' hfound' => ?_
  obtain ⟨_, _, rfl⟩ := Option.map_eq_some_iff.1 hfound
  obtain ⟨_, _, rfl⟩ := Option.map_eq_some_iff.1 hfound'
  exact hlt

end ObjectStore

/-- A use of a store of objects. -/
inductive StoreCall where
  | put (base dir relativePath : String) (object : StoredObject)
  | refuse (reason : String)
  | list (base dir : String)
  | download (base dir : String) (object : RemoteObject) (destination : String)

namespace StoreCall

/-- The store after it is used from a machine. -/
def storeAfter (m : Machine) (store : ObjectStore) : StoreCall → ObjectStore
  | put base dir relativePath object => store.put base dir relativePath object
  | refuse reason => store.refuse reason
  | list base dir => ((ObjectStore.storage.list base dir).run ⟨m, store⟩).2.remote
  | download base dir object destination =>
    ((ObjectStore.storage.download base dir object destination).run ⟨m, store⟩).2.remote

/-- What the call puts under a key. -/
def putAt? (key : String) : StoreCall → Option StoredObject
  | put base dir relativePath object =>
    if ObjectStore.keyOf base dir relativePath = key then some object else none
  | _ => none

/-- Why downloads are to be refused from the call on. -/
def refusal? : StoreCall → Option String
  | refuse reason => some reason
  | _ => none

def isList : StoreCall → Bool
  | list .. => true
  | _ => false

def isDownload : StoreCall → Bool
  | download .. => true
  | _ => false

/-- `call.Uses store after` says what a call makes of a store: what it puts under a key is kept there,
    with all that was under other keys, and it is counted. -/
structure Uses (call : StoreCall) (store after : ObjectStore) : Prop where
  isOrdered : ObjectStore.IsOrdered store.objects → ObjectStore.IsOrdered after.objects
  mem_iff : ObjectStore.IsOrdered store.objects → ∀ key stored, (key, stored) ∈ after.objects ↔
    call.putAt? key = some stored ∨ (call.putAt? key = none ∧ (key, stored) ∈ store.objects)
  refusal_eq : after.refusal = call.refusal?.or store.refusal
  listCalls_eq : after.listCalls = store.listCalls + call.isList.toNat
  downloadCalls_eq : after.downloadCalls = store.downloadCalls + call.isDownload.toNat

theorem uses_storeAfter (m : Machine) (store : ObjectStore) (call : StoreCall) :
    call.Uses store (call.storeAfter m store) := by
  cases call with
  | put base dir relativePath object =>
    refine ⟨fun hordered => hordered.insertAt, fun hordered key stored => ?_, rfl, rfl, rfl⟩
    rw [storeAfter, ObjectStore.put, ObjectStore.mem_insertAt hordered, putAt?]
    by_cases heq : ObjectStore.keyOf base dir relativePath = key
    · simp [heq, eq_comm]
    · simp [heq, Ne.symm heq]
  | refuse reason =>
    rw [storeAfter, ObjectStore.refuse]
    exact ⟨id, fun _ _ _ => by simp [putAt?], rfl, rfl, rfl⟩
  | list base dir =>
    rw [storeAfter, ObjectStore.storage_list]
    exact ⟨id, fun _ _ _ => by simp [putAt?], rfl, rfl, rfl⟩
  | download base dir object destination =>
    rw [storeAfter, ObjectStore.storage_download_remote]
    exact ⟨id, fun _ _ _ => by simp [putAt?], rfl, rfl, rfl⟩

end StoreCall

/-- The uses of a store since it was empty, each from a machine as it was then. -/
abbrev StoreHistory := List (Machine × StoreCall)

namespace StoreHistory

/-- The store that has been used so. -/
def store (calls : StoreHistory) : ObjectStore :=
  calls.foldl (fun store call => call.2.storeAfter call.1 store) {}

/-- What was put last under a key. -/
def latest? (calls : StoreHistory) (key : String) : Option StoredObject :=
  calls.reverse.findSome? fun call => call.2.putAt? key

/-- Why downloads are refused. -/
def refusal? (calls : StoreHistory) : Option String :=
  calls.reverse.findSome? fun call => call.2.refusal?

/-- How often the store was asked for a list. -/
def listCalls (calls : StoreHistory) : Nat := calls.countP fun call => call.2.isList

/-- How often the store was asked for an object. -/
def downloadCalls (calls : StoreHistory) : Nat := calls.countP fun call => call.2.isDownload

/-- Whether an object is to be listed below a directory, under its key: it is what was put last
    there. -/
def IsListed (calls : StoreHistory) (base dir key : String) (object : RemoteObject) : Prop :=
  ∃ stored, calls.latest? key = some stored ∧
    key.toList = (Storage.joinUrl base dir).toList ++ '/' :: object.relativePath.toList ∧
    object.updated = stored.updated ∧ object.size = stored.contents.length

variable {calls : StoreHistory} {call : StoreCall} {m : Machine} {key base dir path : String}

@[simp] theorem store_concat (calls : StoreHistory) (m : Machine) (call : StoreCall) :
    store (calls ++ [(m, call)]) = call.storeAfter m calls.store := by
  rw [store, List.foldl_concat, store]

@[simp] theorem latest?_concat (calls : StoreHistory) (m : Machine) (call : StoreCall)
    (key : String) : latest? (calls ++ [(m, call)]) key =
      (call.putAt? key).or (calls.latest? key) := by
  rw [latest?, List.reverse_concat, List.findSome?_cons, latest?]
  cases call.putAt? key <;> rfl

@[simp] theorem refusal?_concat (calls : StoreHistory) (m : Machine) (call : StoreCall) :
    refusal? (calls ++ [(m, call)]) = call.refusal?.or calls.refusal? := by
  rw [refusal?, List.reverse_concat, List.findSome?_cons, refusal?]
  cases call.refusal? <;> rfl

@[simp] theorem listCalls_concat (calls : StoreHistory) (m : Machine) (call : StoreCall) :
    listCalls (calls ++ [(m, call)]) = calls.listCalls + call.isList.toNat := by
  cases hlist : call.isList <;> simp [listCalls, hlist]

@[simp] theorem downloadCalls_concat (calls : StoreHistory) (m : Machine) (call : StoreCall) :
    downloadCalls (calls ++ [(m, call)]) = calls.downloadCalls + call.isDownload.toNat := by
  cases hdownload : call.isDownload <;> simp [downloadCalls, hdownload]

/-- `Records calls store` says that a store is as its history tells: it keeps what was put last
    under each key, in the order of the keys, and knows how often it was asked. -/
structure Records (calls : StoreHistory) (store : ObjectStore) : Prop where
  isOrdered : ObjectStore.IsOrdered store.objects
  mem_iff : ∀ key stored, (key, stored) ∈ store.objects ↔ calls.latest? key = some stored
  refusal_eq : store.refusal = calls.refusal?
  listCalls_eq : store.listCalls = calls.listCalls
  downloadCalls_eq : store.downloadCalls = calls.downloadCalls

/-- Every call leaves a store as its history tells. -/
theorem Records.concat {store after : ObjectStore} (h : Records calls store)
    (huses : call.Uses store after) (m : Machine) : Records (calls ++ [(m, call)]) after where
  isOrdered := huses.isOrdered h.isOrdered
  mem_iff key stored := by
    rw [huses.mem_iff h.isOrdered, h.mem_iff, latest?_concat, Option.or_eq_some_iff]
  refusal_eq := by rw [huses.refusal_eq, h.refusal_eq, refusal?_concat]
  listCalls_eq := by rw [huses.listCalls_eq, h.listCalls_eq, listCalls_concat]
  downloadCalls_eq := by rw [huses.downloadCalls_eq, h.downloadCalls_eq, downloadCalls_concat]

theorem records_store (calls : StoreHistory) : Records calls calls.store := by
  induction calls using List.reverseRecOn with
  | nil => exact ⟨List.Pairwise.nil, by simp [store, latest?], rfl, rfl, rfl⟩
  | append_singleton calls call ih =>
    rw [store_concat]
    exact ih.concat (call.2.uses_storeAfter call.1 (store calls)) call.1

theorem get?_store (calls : StoreHistory) (key : String) :
    calls.store.get? key = calls.latest? key := by
  obtain ⟨hordered, hmem, _⟩ := records_store calls
  ext stored
  rw [← hmem]
  exact ⟨ObjectStore.mem_of_get?, ObjectStore.get?_of_mem hordered⟩

/-- A store gives out what its history says. -/
theorem fetch_store (calls : StoreHistory) (base dir : String) (object : RemoteObject) :
    calls.store.fetch base dir object =
      match calls.refusal?, calls.latest? (ObjectStore.keyOf base dir object.relativePath) with
      | some reason, _ => .error (.http reason)
      | none, some stored => .ok stored.contents
      | none, none =>
        .error (.http ("404 Not Found: " ++ ObjectStore.keyOf base dir object.relativePath)) := by
  rw [ObjectStore.fetch, (records_store calls).refusal_eq]
  simp only [get?_store]
  cases calls.refusal? with
  | some reason => rfl
  | none => cases calls.latest? (ObjectStore.keyOf base dir object.relativePath) <;> rfl

/-- `calls.Tells m` says that a store with a history does what the history tells when it is used
    from the machine `m`: it lists below a directory what was put last under each key there, in the
    order of the octets of the keys; it gives out what was put last under the key of an object, and
    leaves the machine as it is where downloads are refused or nothing was put; and it knows how
    often it was asked. Slashes at the ends of the parts of a key make no difference. -/
structure Tells (calls : StoreHistory) (m : Machine) : Prop where
  list (base dir : String) : ∃ found : List (String × RemoteObject),
    (ObjectStore.storage.list base dir).run ⟨m, calls.store⟩ = (.ok (found.map (·.2)),
      ⟨m, { calls.store with listCalls := calls.store.listCalls + 1 }⟩) ∧
    found.Pairwise (fun first second =>
      Text.encodeUtf8 first.1.toList < Text.encodeUtf8 second.1.toList) ∧
    ∀ key object, (key, object) ∈ found ↔ calls.IsListed base dir key object
  refused (base dir : String) (object : RemoteObject) (destination reason : String) :
    calls.refusal? = some reason →
    (ObjectStore.storage.download base dir object destination).run ⟨m, calls.store⟩ =
      (.error (.http reason),
        ⟨m, { calls.store with downloadCalls := calls.store.downloadCalls + 1 }⟩)
  missing (base dir : String) (object : RemoteObject) (destination : String) :
    calls.refusal? = none →
    calls.latest? (ObjectStore.keyOf base dir object.relativePath) = none →
    (ObjectStore.storage.download base dir object destination).run ⟨m, calls.store⟩ =
      (.error (.http ("404 Not Found: " ++ ObjectStore.keyOf base dir object.relativePath)),
        ⟨m, { calls.store with downloadCalls := calls.store.downloadCalls + 1 }⟩)
  given (base dir : String) (object : RemoteObject) (destination : String)
    (stored : StoredObject) (tree : FileTree) : calls.refusal? = none →
    calls.latest? (ObjectStore.keyOf base dir object.relativePath) = some stored →
    (Disk.writeFile m.now m.workDir destination stored.contents).run m.tree = (.ok (), tree) →
    (ObjectStore.storage.download base dir object destination).run ⟨m, calls.store⟩ = (.ok (),
      ⟨{ m with tree }, { calls.store with downloadCalls := calls.store.downloadCalls + 1 }⟩) ∧
    (m.tree.get? m.workDir = some .directory → ∃ place data,
      tree.stat m.workDir destination = .ok (place, .file data) ∧
      data.contents = stored.contents ∧ FileTree.SameOff place m.tree tree)
  listCalls_eq : calls.store.listCalls = calls.listCalls
  downloadCalls_eq : calls.store.downloadCalls = calls.downloadCalls
  slashes (base dir path base' dir' path' : String) (stored : StoredObject) :
    Storage.trimEndSlashes base.toList = Storage.trimEndSlashes base'.toList →
    Storage.trimSlashes dir.toList = Storage.trimSlashes dir'.toList →
    Storage.trimSlashes path.toList = Storage.trimSlashes path'.toList →
    latest? (calls ++ [(m, .put base' dir' path' stored)]) (ObjectStore.keyOf base dir path) =
      some stored

/-- Whatever a store was used for, it does what its history tells. -/
theorem store_tells (calls : StoreHistory) (m : Machine) : calls.Tells m where
  list base dir := by
    obtain ⟨hordered, hmem, _⟩ := records_store calls
    refine ⟨calls.store.listing base dir, ?_, ?_, fun key object => ?_⟩
    · rw [ObjectStore.storage_list, ObjectStore.below_eq_map]
    · refine (ObjectStore.pairwise_listing hordered).imp fun hlt => ?_
      exact Text.encodeUtf8_lt (String.lt_iff_toList_lt.1 hlt)
    · simp only [ObjectStore.mem_listing, ObjectStore.pathBelow?_eq_some_iff, hmem, IsListed]
  refused base dir object destination reason hrefusal := by
    rw [ObjectStore.storage_download, fetch_store, hrefusal]
  missing base dir object destination hrefusal hlatest := by
    rw [ObjectStore.storage_download, fetch_store, hrefusal, hlatest]
  given base dir object destination stored tree hrefusal hlatest hwrite := by
    refine ⟨?_, fun hwork => ?_⟩
    · rw [ObjectStore.storage_download, fetch_store, hrefusal, hlatest]
      exact Action.run_onDisk_eq_ok.2 ⟨tree, hwrite, rfl⟩
    · obtain ⟨place, data, hcontents, hstat, hoff⟩ := Disk.stat_of_writeFile hwrite hwork
      exact ⟨place, data, hstat, hcontents, hoff⟩
  listCalls_eq := (records_store calls).listCalls_eq
  downloadCalls_eq := (records_store calls).downloadCalls_eq
  slashes base dir path base' dir' path' stored hbase hdir hpath := by
    rw [latest?_concat, StoreCall.putAt?, if_pos (ObjectStore.keyOf_congr hbase hdir hpath).symm]
    rfl

/-- Two directories of which the name of one begins the other one's, and an object that is put
    twice. -/
example (m : Machine) (updated later : Timestamp) :
    let calls : StoreHistory := [(m, .put "gs://b" "skps" "a" ⟨[1], updated⟩),
      (m, .put "gs://b" "skps-old" "b" ⟨[2], updated⟩), (m, .list "gs://b" "skps"),
      (m, .put "gs://b/" "/skps/" "/a" ⟨[3, 4], later⟩)]
    calls.store.below "gs://b" "skps" = [⟨"a", later, 2⟩] ∧ calls.store.listCalls = 1 :=
  ⟨by rfl, by rfl⟩

end StoreHistory

end StepRunner
