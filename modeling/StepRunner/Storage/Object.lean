import StepRunner.Storage.Error
import StepRunner.Time.Timestamp
import StepRunner.World

namespace StepRunner

/-- An object of a listing. Its path is relative to the directory that was listed. -/
structure RemoteObject where
  relativePath : String
  updated : Timestamp
  size : Nat
deriving DecidableEq, Repr

/-- Access to stored objects by a base and a directory below it. `list` gives all objects of the
    directory and those below it; `download` writes one of them to a path. -/
structure Storage (σ : Type) where
  list : (base dir : String) → Action σ StorageError (List RemoteObject)
  download : (base dir : String) → (object : RemoteObject) → (destination : String) →
    Action σ StorageError Unit

namespace Storage

/-- The base of a step that is not told another one. -/
def defaultBase : String := "gs://chromium-skia-gm"

/-- The file that is written when an upload begins. -/
def uploadStartedName : String := "TIMESTAMP_LAST_UPLOAD_STARTED"

/-- The file that is written when an upload is complete. -/
def uploadCompletedName : String := "TIMESTAMP_LAST_UPLOAD_COMPLETED"

/-- The file that is written when a comparison of images succeeds. -/
def lastComparisonName : String := "LAST_COMPARISON_SUCCEEDED"

/-- The files that record progress and are kept when a directory is emptied. -/
def sentinelNames : List String := [uploadCompletedName, lastComparisonName]

/-- Whether a file records progress. -/
def isSentinel (name : String) : Bool := sentinelNames.contains name

/-- The storage as a part of a larger one. -/
def focus {σ τ : Type} (view : τ → σ) (update : σ → τ → τ) (storage : Storage σ) : Storage τ where
  list base dir := (storage.list base dir).focus view update
  download base dir object destination :=
    (storage.download base dir object destination).focus view update

end Storage

end StepRunner
