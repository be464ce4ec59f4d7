import StepRunner.Step.Context
import StepRunner.Step.Harness
import StepRunner.Step.Prune
import StepRunner.Storage.Sync

namespace StepRunner

/-- What the download step is to do. -/
structure SyncConfig where
  /-- Whether the step does anything at all. -/
  usePlaybackFramework : Bool
  /-- The storage base, if it is not the usual one. -/
  destStorageBase : Option String
  localDirs : LocalPlaybackDirs
  storageDirs : StoragePlaybackDirs
  timeoutSecs : Nat
deriving DecidableEq, Repr

namespace SyncConfig

/-- What a context asks for. An empty base counts as none. -/
def ofContext (ctx : StepContext) : SyncConfig where
  usePlaybackFramework := ctx.useSkpPlaybackFramework
  destStorageBase := (ctx.args.get? "dest_gsbase").filter (· ≠ "")
  localDirs := ctx.localDirs
  storageDirs := ctx.storageDirs
  timeoutSecs := ctx.timeoutOr defaultTimeoutSecs

/-- The base that pictures are downloaded from. -/
def storageBase (config : SyncConfig) : String := config.destStorageBase.getD Storage.defaultBase

variable {σ : Type}

/-- Makes a directory and those above it, unless a path leads to something already. -/
def makeMissing (path : String) : Action σ StepError Unit := do
  let m ← Action.machine
  if m.tree.hasPath m.workDir path then return
  else Action.onDisk .io fun here => Disk.makeDirectories here path

/-- Makes the directory for pictures, and makes or empties the one for rendered images. Gives the
    files that were removed from it. -/
def createLocalDirs (config : SyncConfig) : Action σ StepError (List String) := do
  makeMissing config.localDirs.skp
  let m ← Action.machine
  if m.tree.hasPath m.workDir config.localDirs.gmActual then
    Prune.keepingSentinels config.localDirs.gmActual
  else
    Action.onDisk .io fun here => Disk.makeDirectories here config.localDirs.gmActual
    return []

/-- Downloads the pictures whose copies are not new enough. -/
def downloadSkps (config : SyncConfig) (storage : Storage σ) : Action σ StepError SyncReport := do
  Action.note .info .download "========Downloading skp files from Google Storage========"
  (Sync.directory storage config.storageBase config.storageDirs.skp config.localDirs.skp).mapError
    .storage

/-- Does the work of the step, unless it is switched off. -/
def download (config : SyncConfig) (storage : Storage σ) : Action σ StepError Unit := do
  if config.usePlaybackFramework then
    let _ ← config.createLocalDirs
    let _ ← config.downloadSkps storage
  else Action.note .info .download "SKP playback framework disabled; nothing to download"

/-- The download step. -/
def step (config : SyncConfig) (storage : Storage σ) : BuildStep σ :=
  ⟨"download_skps", config.timeoutSecs, config.download storage⟩

end SyncConfig

end StepRunner
