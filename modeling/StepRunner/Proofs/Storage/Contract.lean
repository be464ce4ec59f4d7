import StepRunner.Proofs.Action
import StepRunner.Proofs.FileTree.Files
import StepRunner.Storage.Object

namespace StepRunner

open FileTree

/-- Two machines with the same working directory and the same entries of their file trees. -/
structure Machine.SameFiles (m m' : Machine) : Prop where
  workDir : m'.workDir = m.workDir
  tree : m.tree.Same m'.tree

/-- Two machines with the same working directory and, but at one place, the same entries of their
    file trees. -/
structure Machine.WritesOnly (place : Location) (m m' : Machine) : Prop where
  workDir : m'.workDir = m.workDir
  off : SameOff place m.tree m'.tree

/-- Whether a path leads to the file at a place, as seen from the working directory of a machine. -/
def Machine.LeadsToFile (m : Machine) (path : String) (place : Location) : Prop :=
  ∃ data, m.tree.stat m.workDir path = .ok (place, .file data)

namespace Storage

variable {σ : Type}

/-- What succeeds changes no local file but the one that a download is given, which stays a file. -/
structure WritesOnlyGiven (storage : Storage σ) : Prop where
  list {base dir : String} {objects : List RemoteObject} {w w' : World σ}
    (run : (storage.list base dir).run w = (.ok objects, w')) : w.machine.SameFiles w'.machine
  download {base dir path : String} {object : RemoteObject} {place : Location} {w w' : World σ}
    (given : w.machine.LeadsToFile path place)
    (run : (storage.download base dir object path).run w = (.ok (), w')) :
    w.machine.WritesOnly place w'.machine ∧
      ∃ written, w'.machine.tree.get? place = some (.file written)

/-- What fails changes no local file but the one that a download is given. It may leave there
    whatever a file can be replaced with, or nothing. -/
structure FailsInGiven (storage : Storage σ) : Prop where
  list {base dir : String} {e : StorageError} {w w' : World σ}
    (run : (storage.list base dir).run w = (.error e, w')) : w.machine.SameFiles w'.machine
  download {base dir path : String} {object : RemoteObject} {place : Location} {e : StorageError}
    {w w' : World σ} (given : w.machine.LeadsToFile path place)
    (run : (storage.download base dir object path).run w = (.error e, w')) :
    w.machine.WritesOnly place w'.machine ∧ w'.machine.tree.get? place ≠ some .directory

/-- Asked on a machine, whatever is in its log, the storage lists these objects and does not touch
    local files. -/
def Lists (storage : Storage σ) (base dir : String) (w : World σ) (objects : List RemoteObject) :
    Prop :=
  ∀ log, ∃ w', (storage.list base dir).run ⟨{ w.machine with log }, w.remote⟩ =
    (.ok objects, w') ∧ w.machine.SameFiles w'.machine

/-- Whether a download of an object that succeeds can leave these contents in the file that it is
    given. -/
def Gives (storage : Storage σ) (base dir : String) (object : RemoteObject)
    (contents : List UInt8) : Prop :=
  ∃ path place written, ∃ w w' : World σ, w.machine.LeadsToFile path place ∧
    (storage.download base dir object path).run w = (.ok (), w') ∧
    w'.machine.tree.get? place = some (.file written) ∧ written.contents = contents

/-- As long as `steady` holds of what lies outside the machine, the storage lists these objects of a
    directory, and a download of one of them succeeds: it writes all its contents to the file that
    it is given and does nothing else to local files. -/
structure Delivers (storage : Storage σ) (base dir : String) (steady : σ → Prop)
    (objects : List RemoteObject) (bytes : RemoteObject → List UInt8) : Prop where
  writesOnlyGiven : storage.WritesOnlyGiven
  list {w : World σ} (holds : steady w.remote) :
    ∃ w', (storage.list base dir).run w = (.ok objects, w') ∧ steady w'.remote ∧
      w.machine.SameFiles w'.machine ∧ w'.machine.temporaryNames = w.machine.temporaryNames
  download {w : World σ} {object : RemoteObject} {path : String} {place : Location}
    {data : FileData} (listed : object ∈ objects) (holds : steady w.remote)
    (given : w.machine.tree.stat w.machine.workDir path = .ok (place, .file data)) :
    ∃ w' modified, (storage.download base dir object path).run w = (.ok (), w') ∧
      steady w'.remote ∧ w.machine.WritesOnly place w'.machine ∧
      w'.machine.temporaryNames = w.machine.temporaryNames ∧
      w'.machine.tree.get? place = some (.file { data with contents := bytes object, modified })

end Storage

end StepRunner
