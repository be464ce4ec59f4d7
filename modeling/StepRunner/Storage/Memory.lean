import StepRunner.Storage.Address
import StepRunner.Storage.Object

namespace StepRunner

/-- An object as it is kept. -/
structure StoredObject where
  contents : List UInt8
  updated : Timestamp
deriving DecidableEq, Repr

/-- Objects by their full URLs, in ascending order of these. It counts how often it is asked, and
    can be told to refuse downloads. -/
structure ObjectStore where
  objects : List (String × StoredObject) := []
  listCalls : Nat := 0
  downloadCalls : Nat := 0
  refusal : Option String := none
deriving DecidableEq, Repr

namespace ObjectStore

/-- Puts an object under its key into a list in order. -/
def insertAt (key : String) (object : StoredObject) :
    List (String × StoredObject) → List (String × StoredObject)
  | [] => [(key, object)]
  | (k, o) :: rest =>
    if key < k then (key, object) :: (k, o) :: rest
    else if key = k then (key, object) :: rest
    else (k, o) :: insertAt key object rest

/-- The key of an object. -/
def keyOf (base dir relativePath : String) : String :=
  Storage.joinUrl (Storage.joinUrl base dir) relativePath

/-- The store with an object added or replaced. -/
def put (store : ObjectStore) (base dir relativePath : String) (object : StoredObject) :
    ObjectStore :=
  { store with objects := insertAt (keyOf base dir relativePath) object store.objects }

/-- The store that refuses downloads from now on. -/
def refuse (store : ObjectStore) (reason : String) : ObjectStore :=
  { store with refusal := some reason }

/-- The object under a key. -/
def get? (store : ObjectStore) (key : String) : Option StoredObject := store.objects.lookup key

/-- The objects whose keys lie below a directory. -/
def below (store : ObjectStore) (base dir : String) : List RemoteObject :=
  let dirSlash := (Storage.joinUrl base dir).toList ++ ['/']
  store.objects.filterMap fun (key, object) =>
    (Text.dropStart? dirSlash key.toList).map fun relativePath =>
      ⟨String.ofList relativePath, object.updated, object.contents.length⟩

/-- The contents of an object, unless downloads are refused or it is not there. -/
def fetch (store : ObjectStore) (base dir : String) (object : RemoteObject) :
    Except StorageError (List UInt8) :=
  match store.refusal with
  | some reason => .error (.http reason)
  | none =>
    let key := keyOf base dir object.relativePath
    match store.get? key with
    | some stored => .ok stored.contents
    | none => .error (.http ("404 Not Found: " ++ key))

/-- The store as storage. -/
def storage : Storage ObjectStore where
  list base dir := do
    modify fun w => { w with remote := { w.remote with listCalls := w.remote.listCalls + 1 } }
    return (← get).remote.below base dir
  download base dir object destination := do
    modify fun w =>
      { w with remote := { w.remote with downloadCalls := w.remote.downloadCalls + 1 } }
    let w ← get
    match w.remote.fetch base dir object with
    | .error e => throw e
    | .ok contents =>
      Action.onDisk .io fun here => Disk.writeFile w.machine.now here destination contents

end ObjectStore

end StepRunner
