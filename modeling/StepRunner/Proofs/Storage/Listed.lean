import StepRunner.Proofs.Storage.Listing
import StepRunner.Proofs.Sync.Objects
import StepRunner.Storage.Gsutil

namespace StepRunner

namespace Storage.Listing

variable {listing dir : String} {object : RemoteObject} {objects : List RemoteObject}

/-- Each object of a listing has its line there. -/
theorem exists_line_of_mem (h : Listing.objects listing dir = .ok objects)
    (hmem : object ∈ objects) : ∃ line ∈ Text.lines listing.toList,
      object? (trimEndSlashes dir.toList ++ ['/']) line = .ok (some object) := by
  obtain ⟨told, hall, rfl⟩ := objects_eq_ok_iff.1 h
  exact exists_of_mem_mapM (mapM_eq_ok_iff.2 hall) (by simpa using hmem)

end Storage.Listing

namespace Sync

/-- A path that is accepted names something, and not from the root. -/
theorem head?_of_localPath {localDir path destination : String}
    (h : localPath localDir path = .ok destination) :
    path ≠ "" ∧ path.toList.head? ≠ some '/' := by
  obtain ⟨hne, hnormal, _⟩ := localPath_eq_ok_iff.1 h
  exact ⟨hne, (FileTree.components_eq_map hnormal).1⟩

end Sync

namespace Gsutil

variable {σ : Type} {programs : Programs} {executable base dir : String} {object : RemoteObject}
  {listed : List RemoteObject} {w w' : World σ}

/-- Objects are listed only from what the tool wrote. -/
theorem exists_listing_of_list
    (h : ((storage programs executable).list base dir).run w = (.ok listed, w'))
    (hmem : object ∈ listed) : ∃ listing,
      (call programs executable ["ls", "-l", "-r", Storage.joinUrl base dir]).run w =
        (.ok listing, w') ∧
      Storage.Listing.objects listing (Storage.joinUrl base dir) = .ok listed := by
  simp only [storage] at h
  rw [Action.run_bind, Action.run_outcome] at h
  simp only at h
  cases hcall : (call programs executable ["ls", "-l", "-r", Storage.joinUrl base dir]).run w with
  | mk result after =>
  rw [hcall] at h
  cases result with
  | ok listing =>
    rw [Action.run_lift, Prod.mk.injEq] at h
    obtain ⟨hobjects, rfl⟩ := h
    exact ⟨listing, rfl, hobjects⟩
  | error e =>
    simp only at h
    split at h
    · next heq => cases heq
    · split at h
      · cases h
        cases hmem
      · cases h
    · cases h

/-- What is downloaded for a listed object is the URL on its line. -/
theorem exists_line_of_list {localDir destination : String}
    (h : ((storage programs executable).list base dir).run w = (.ok listed, w'))
    (hmem : object ∈ listed)
    (hpath : Sync.localPath localDir object.relativePath = .ok destination) :
    ∃ listing, (call programs executable ["ls", "-l", "-r", Storage.joinUrl base dir]).run w =
        (.ok listing, w') ∧
      ∃ line ∈ Text.lines listing.toList,
        Storage.Listing.object? ((Storage.joinUrl base dir).toList ++ ['/']) line =
          .ok (some object) ∧
        ∃ size time url, Storage.Listing.HasFields (Storage.Listing.content line) size time url ∧
          Storage.joinUrl (Storage.joinUrl base dir) object.relativePath = String.ofList url := by
  obtain ⟨listing, hcall, hobjects⟩ := exists_listing_of_list h hmem
  obtain ⟨line, hline, hobject⟩ := Storage.Listing.exists_line_of_mem hobjects hmem
  rw [Storage.trimEndSlashes_joinUrl] at hobject
  obtain ⟨hne, hstart⟩ := Sync.head?_of_localPath hpath
  have hrel : object.relativePath.toList ≠ [] := by simpa using hne
  obtain ⟨_, size, time, hfields, hlast, _⟩ := Storage.Listing.object?_eq_some_iff.1 hobject
  rw [List.getLast?_append_of_ne_nil _ hrel] at hlast
  have hjoin := Storage.joinUrl_joinUrl base dir hrel hstart hlast
  rw [String.ofList_toList] at hjoin
  exact ⟨listing, hcall, line, hline, hobject, size, time, _, hfields, hjoin⟩

end Gsutil

namespace ObjectStore

variable {store : ObjectStore} {base dir key : String} {object : RemoteObject}
  {stored : StoredObject}

/-- `IsFilled store` says that all that the store keeps was put into it, whatever else was done with
    it. -/
inductive IsFilled : ObjectStore → Prop
  | empty : IsFilled {}
  | put {store : ObjectStore} (isFilled : IsFilled store) (base dir path : String)
    (object : StoredObject) : IsFilled (store.put base dir path object)
  | used {store store' : ObjectStore} (isFilled : IsFilled store)
    (objects : store'.objects = store.objects) : IsFilled store'

theorem IsFilled.isOrdered (h : IsFilled store) : IsOrdered store.objects := by
  induction h with
  | empty => exact .nil
  | put _ _ _ _ _ ih => exact ih.insertAt
  | used _ objects ih => exact objects ▸ ih

/-- No key ends with a slash. -/
theorem IsFilled.getLast?_key (h : IsFilled store) (hmem : (key, stored) ∈ store.objects) :
    key.toList.getLast? ≠ some '/' := by
  induction h with
  | empty => cases hmem
  | put isFilled base dir path object ih =>
    rcases (mem_insertAt isFilled.isOrdered).1 hmem with ⟨rfl, _⟩ | ⟨_, hmem⟩
    · exact fun hlast => Storage.getLast?_joinUrl hlast rfl
    · exact ih hmem
  | used _ objects ih => exact ih (objects ▸ hmem)

/-- A listed object is fetched by its own key. -/
theorem IsFilled.exists_of_mem_below {localDir destination : String} (h : IsFilled store)
    (hmem : object ∈ store.below base dir)
    (hpath : Sync.localPath localDir object.relativePath = .ok destination) :
    ∃ key stored, (key, stored) ∈ store.objects ∧
      pathBelow? base dir key = some object.relativePath ∧ object.updated = stored.updated ∧
      object.size = stored.contents.length ∧ keyOf base dir object.relativePath = key ∧
      store.fetch base dir object = match store.refusal with
        | some reason => .error (.http reason)
        | none => .ok stored.contents := by
  obtain ⟨key, stored, hkey, hbelow, hupdated, hsize⟩ := mem_below.1 hmem
  obtain ⟨hne, hstart⟩ := Sync.head?_of_localPath hpath
  have hend : object.relativePath.toList.getLast? ≠ some '/' := by
    obtain ⟨chars, hchars, hrel⟩ := Option.map_eq_some_iff.1 hbelow
    have hchars' : chars ≠ [] := by
      rintro rfl
      exact hne hrel.symm
    have hlast := h.getLast?_key hkey
    rw [Text.dropStart?_eq_some_iff.1 hchars, List.getLast?_append_of_ne_nil _ hchars'] at hlast
    rwa [← hrel, String.toList_ofList]
  have hkeyOf := keyOf_pathBelow hbelow hne hstart hend
  refine ⟨key, stored, hkey, hbelow, hupdated, hsize, hkeyOf, ?_⟩
  unfold fetch
  cases store.refusal with
  | some reason => rfl
  | none =>
    simp only [hkeyOf]
    rw [get?_of_mem h.isOrdered hkey]

/-- What a sync does not change of a store. -/
def kept (store : ObjectStore) : List (String × StoredObject) × Option String :=
  (store.objects, store.refusal)

theorem fetch_congr {store' : ObjectStore} (h : kept store' = kept store) :
    store'.fetch base dir object = store.fetch base dir object := by
  obtain ⟨hobjects, hrefusal⟩ := Prod.mk.inj h
  simp only [fetch, get?, hobjects, hrefusal]

theorem storage_download_keepsRemote (base dir : String) (object : RemoteObject) (path : String) :
    (storage.download base dir object path).KeepsRemote kept := by
  intro w
  rw [storage_download]
  cases w.remote.fetch base dir object <;> rfl

end ObjectStore

namespace Sync

open ObjectStore

variable {base dir localDir message : String} {w w' : World ObjectStore}

/-- A sync from a store fails over a download only if the store refuses it. -/
theorem refusal_of_directory_error (hfilled : IsFilled w.remote)
    (h : (directory ObjectStore.storage base dir localDir).run w = (.error (.http message), w')) :
    w.remote.refusal = some message := by
  rcases directory_error h with hlisting | ⟨listed, w₁, hlisting, hobjects⟩
  · obtain ⟨log, result, tree, _, ⟨_, hlocal⟩ | hlist⟩ := listing_error hlisting
    · exact hlocal.elim
    · rw [storage_list] at hlist
      cases hlist
  obtain ⟨log, tree, _, hlist⟩ := listing_ok hlisting
  rw [storage_list] at hlist
  cases hlist
  obtain ⟨before, object, after, middle, w₂, hlisted, hbefore, hobject⟩ := objects_error hobjects
  have hkept : kept w₂.remote = kept w.remote :=
    objects_ok (fun _ _ now => kept now.remote = kept w.remote)
      (fun _ hinv hobject => ((object_keepsRemote
        (storage_download_keepsRemote base dir _)).of_run hobject).trans hinv)
      hbefore (List.nil_append _).symm rfl
  rcases isLocal_or_download_of_object hobject with hlocal | ⟨destination, hpath, staging, machine,
    after, hdownload⟩
  · exact hlocal.elim
  have hmem : object ∈ w.remote.below base dir := by
    change w.remote.below base dir = _ at hlisted
    rw [hlisted]
    simp
  obtain ⟨_, stored, _, _, _, _, _, hfetch⟩ := hfilled.exists_of_mem_below hmem hpath
  rw [storage_download, fetch_congr hkept, hfetch] at hdownload
  cases hrefusal : w.remote.refusal with
  | some reason =>
    rw [hrefusal] at hdownload
    cases hdownload
    rfl
  | none =>
    rw [hrefusal] at hdownload
    obtain ⟨_, _, _, hio, _⟩ := Action.run_onDisk_eq_error.1 hdownload
    cases hio

end Sync

namespace Storage

open ObjectStore

/-- What is listed can be downloaded, unless its path is refused. The command line tool is asked for
    the URL that stands on the object's line of the listing. A store into which objects were put
    gives out the object that was listed, which it finds under the whole of its key; a sync from it
    does not fail over a download unless downloads are refused. -/
theorem download_agrees_with_list {base dir localDir destination : String} {object : RemoteObject}
    (haccepted : Sync.localPath localDir object.relativePath = .ok destination) :
    (∀ {σ : Type} (programs : Programs) (executable : String) (listed : List RemoteObject)
        (w w' : World σ),
      ((Gsutil.storage programs executable).list base dir).run w = (.ok listed, w') →
      object ∈ listed →
      ∃ listing, (Gsutil.call programs executable ["ls", "-l", "-r", joinUrl base dir]).run w =
          (.ok listing, w') ∧
        ∃ line ∈ Text.lines listing.toList,
          Listing.object? ((joinUrl base dir).toList ++ ['/']) line = .ok (some object) ∧
          ∃ size time url, Listing.HasFields (Listing.content line) size time url ∧
            ∀ file, ((Gsutil.storage programs executable).download base dir object file :
                Action σ StorageError Unit) =
              Gsutil.call programs executable ["cp", String.ofList url, file] >>=
                fun _ => pure ()) ∧
    (∀ (w : World ObjectStore), IsFilled w.remote → object ∈ w.remote.below base dir →
      ∃ key stored, (key, stored) ∈ w.remote.objects ∧
        pathBelow? base dir key = some object.relativePath ∧ object.updated = stored.updated ∧
        object.size = stored.contents.length ∧ keyOf base dir object.relativePath = key ∧
        ∀ file, (ObjectStore.storage.download base dir object file).run w =
          (match w.remote.refusal with
            | some reason => throw (StorageError.http reason)
            | none => Action.onDisk StorageError.io fun here =>
              Disk.writeFile w.machine.now here file stored.contents).run
            { w with remote := { w.remote with downloadCalls := w.remote.downloadCalls + 1 } }) ∧
    ∀ (w w' : World ObjectStore) (message : String), IsFilled w.remote →
      (Sync.directory ObjectStore.storage base dir localDir).run w =
        (.error (.http message), w') → w.remote.refusal = some message := by
  refine ⟨?_, ?_, fun w w' message => Sync.refusal_of_directory_error⟩
  · intro σ programs executable listed w w' hlist hmem
    obtain ⟨listing, hcall, line, hline, hobject, size, time, url, hfields, hurl⟩ :=
      Gsutil.exists_line_of_list hlist hmem haccepted
    refine ⟨listing, hcall, line, hline, hobject, size, time, url, hfields, fun file => ?_⟩
    simp only [Gsutil.storage, hurl]
  · intro w hfilled hmem
    obtain ⟨key, stored, hkey, hbelow, hupdated, hsize, hkeyOf, hfetch⟩ :=
      hfilled.exists_of_mem_below hmem haccepted
    refine ⟨key, stored, hkey, hbelow, hupdated, hsize, hkeyOf, fun file => ?_⟩
    rw [storage_download, hfetch]
    cases w.remote.refusal <;> rfl

/-- A tool for trials: it writes one line, whatever it is asked. -/
def trialTool : Programs := fun _ _ tree =>
  ⟨.exited 0, Text.encodeUtf8 " 1  1970-01-01T00:00:01Z  gs://b/d/x//y \r\n".toList, [], tree⟩

/-- A world in which the tool is installed, and an object was put into the store. -/
def trialWorld (updated : Timestamp) : World ObjectStore where
  machine := (trial (FileTree.empty.put ["tool"]
    (.file ⟨ProgramCall.nativeImage "tool", ⟨0⟩, true⟩)) []).machine
  remote := ({} : ObjectStore).put "gs://b/" "/d//" "x//y " ⟨[1], updated⟩

theorem download_agrees_with_list_inner_slashes :
    Sync.localPath "x" "x//y " = .ok "x/x//y " ∧
    (∃ w' line size time url,
      ((Gsutil.storage trialTool "/tool").list "gs://b//" "d").run (trialWorld (atSecond 1)) =
        (.ok [⟨"x//y ", atSecond 1, 1⟩], w') ∧
      Listing.HasFields (Listing.content line) size time url ∧
      ∀ file, ((Gsutil.storage trialTool "/tool").download "gs://b//" "d"
          ⟨"x//y ", atSecond 1, 1⟩ file : Action ObjectStore StorageError Unit) =
        Gsutil.call trialTool "/tool" ["cp", String.ofList url, file] >>= fun _ => pure ()) ∧
    ∃ stored,
      (keyOf "gs://b//" "d" "x//y ", stored) ∈ (trialWorld (atSecond 1)).remote.objects := by
  have haccepted : Sync.localPath "x" "x//y " = .ok "x/x//y " := by decide +kernel
  obtain ⟨htool, hstore, _⟩ := @download_agrees_with_list "gs://b//" "d" "x" _
    ⟨"x//y ", atSecond 1, 1⟩ haccepted
  refine ⟨haccepted, ?_, ?_⟩
  · obtain ⟨w', hlist, _⟩ : ∃ w', ((Gsutil.storage trialTool "/tool").list "gs://b//" "d").run
        (trialWorld (atSecond 1)) = (.ok [⟨"x//y ", atSecond 1, 1⟩], w') ∧ True :=
      Action.exists_run (by decide +kernel) trivial
    obtain ⟨_, _, line, _, _, size, time, url, hfields, hdownload⟩ :=
      htool trialTool "/tool" _ _ _ hlist List.mem_cons_self
    exact ⟨w', line, size, time, url, hlist, hfields, hdownload⟩
  · have hmem :
        ⟨"x//y ", atSecond 1, 1⟩ ∈ (trialWorld (atSecond 1)).remote.below "gs://b//" "d" := by
      decide +kernel
    obtain ⟨key, stored, hkey, _, _, _, rfl, _⟩ :=
      hstore (trialWorld (atSecond 1)) (IsFilled.empty.put _ _ _ _) hmem
    exact ⟨stored, hkey⟩

end Storage

end StepRunner
