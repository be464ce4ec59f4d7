import StepRunner.Storage.Address
import StepRunner.Storage.Object

namespace StepRunner

/-- What a sync did: the objects that it downloaded and those whose copies were new enough. -/
structure SyncReport where
  downloaded : List String
  upToDate : List String
deriving DecidableEq, Repr

namespace Sync

variable {σ : Type}

/-- Where the copy of an object lies below a directory. The object's path must be made of names
    alone, so that it leads nowhere else. -/
def localPath (localDir relativePath : String) : Except StorageError String :=
  let isName : Component → Bool
    | .normal _ => true
    | .root | .current | .parent => false
  if relativePath ≠ "" ∧ (Path.components relativePath).all isName then
    .ok (Path.join localDir relativePath)
  else .error (.invalidObjectPath relativePath)

/-- Whether the copy of an object is there and at least as new as the object. -/
def isCurrent (m : Machine) (destination : String) (object : RemoteObject) :
    Except StorageError Bool :=
  match m.tree.stat m.workDir destination with
  | .ok (_, .file data) => .ok (object.updated.toInstant ≤ data.modified)
  | .ok (_, .directory) | .ok (_, .link _) => .error (.invalidObjectPath object.relativePath)
  | .error e => if e = .notFound then .ok false else .error (.io e)

/-- Removes a file that is not needed any more, if it is still there. -/
def discard (path : String) : Action σ StorageError Unit := do
  let _ ← (Action.onDisk StorageError.io fun here => Disk.removeFile here path).outcome

/-- The action, with a file removed if it fails. -/
def orDiscard {α : Type} (path : String) (action : Action σ StorageError α) :
    Action σ StorageError α := do
  match ← action.outcome with
  | .ok value => return value
  | .error e =>
    discard path
    throw e

/-- Downloads an object to its destination. It is staged in the same directory, so that nothing
    else is ever found at the destination than a whole file. -/
def fetch (storage : Storage σ) (base dir : String) (object : RemoteObject)
    (destination : String) : Action σ StorageError Unit := do
  let some parent := Path.parent? destination | throw (.invalidObjectPath object.relativePath)
  Action.onDisk .io fun here => Disk.makeDirectories here parent
  let m ← Action.machine
  let staging ← Action.onDisk .io fun here =>
    Disk.makeTemporary m.now here parent m.temporaryNames
  orDiscard staging (storage.download base dir object staging)
  orDiscard staging (Action.onDisk .io fun here => Disk.renameFile here staging destination)
  Action.onDisk .io fun here => Disk.setModified here destination object.updated.toInstant

/-- Brings the copy of one object up to date, and adds the object to the report. -/
def object (storage : Storage σ) (base dir localDir : String) (report : SyncReport)
    (object : RemoteObject) : Action σ StorageError SyncReport := do
  let destination ← ExceptT.mk (pure (localPath localDir object.relativePath))
  let m ← Action.machine
  if ← ExceptT.mk (pure (isCurrent m destination object)) then
    Action.note .debug .sync "Up to date" [("path", .text object.relativePath)]
    return { report with upToDate := report.upToDate ++ [object.relativePath] }
  else
    fetch storage base dir object destination
    Action.note .info .sync "Downloaded"
      [("path", .text object.relativePath), ("size", .number object.size)]
    return { report with downloaded := report.downloaded ++ [object.relativePath] }

/-- Brings the copies of objects up to date, in order. -/
def objects (storage : Storage σ) (base dir localDir : String) (report : SyncReport) :
    List RemoteObject → Action σ StorageError SyncReport
  | [] => return report
  | first :: rest => do
    objects storage base dir localDir (← object storage base dir localDir report first) rest

/-- Makes the local directory and lists the stored one. -/
def listing (storage : Storage σ) (base dir localDir : String) :
    Action σ StorageError (List RemoteObject) := do
  Action.note .info .sync "Syncing directory from storage"
    [("source", .text (Storage.joinUrl base dir)), ("dest", .text localDir)]
  Action.onDisk .io fun here => Disk.makeDirectories here localDir
  storage.list base dir

/-- Brings a local directory up to date with a stored one. A file that is there only locally is
    left alone. -/
def directory (storage : Storage σ) (base dir localDir : String) :
    Action σ StorageError SyncReport := do
  let listed ← listing storage base dir localDir
  let report ← objects storage base dir localDir ⟨[], []⟩ listed
  Action.note .info .sync "Sync finished"
    [("downloaded", .number report.downloaded.length),
      ("up_to_date", .number report.upToDate.length)]
  return report

end Sync

end StepRunner
