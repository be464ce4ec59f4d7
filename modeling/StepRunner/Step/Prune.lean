import StepRunner.Step.Error
import StepRunner.Storage.Object

namespace StepRunner.Prune

variable {σ : Type}

/-- The path of an entry below `top`, as seen through the path of `top`. -/
def pathBelow (dir : String) (top loc : Location) : String :=
  (loc.take (loc.length - top.length)).reverse.foldl Path.join dir

/-- Whether an entry counts as a directory, which stays. A link does if its path leads to one. -/
def staysAsDirectory (t : FileTree) (here : Location) (path : String) (loc : Location) : Bool :=
  match t.get? loc with
  | some .directory | none => true
  | some (.link _) => t.isDirectory here path
  | some (.file _) => false

/-- Whether the name of an entry keeps it. -/
def isKept (loc : Location) : Bool := loc.head?.any Storage.isSentinel

/-- What a walk tells when it cannot read the directory at a path. -/
def unreadable (path : String) (e : IoError) : IoError :=
  .other ("IO error for operation on " ++ path ++ ": " ++ e.message)

/-- Reads the directory at a path, for the walk to go on in it. -/
def readDirectory (here : Location) (path : String) : Disk Unit := do
  match (← get).stat here path with
  | .ok (_, .directory) => return
  | .ok _ => throw (unreadable path .notADirectory)
  | .error e => throw (unreadable path e)

/-- Visits an entry. If it has to go it is deleted by its path, which is given then. Like any other
    path this one may follow only so many links, those on the way of `dir` among them. -/
def visit (dir : String) (top loc : Location) : Action σ StepError (Option String) := do
  let m ← Action.machine
  let path := pathBelow dir top loc
  if m.tree.get? loc = some .directory then
    Action.onDisk .io fun here => readDirectory here path
  if staysAsDirectory m.tree m.workDir path loc then return none
  if isKept loc then
    Action.note .debug .download "Keeping sentinel" [("path", .text path)]
    return none
  Action.onDisk .io fun here => Disk.removeFile here path
  return some path

/-- Deletes those of the visited entries that have to go, and gives their paths. -/
def entries (dir : String) (top : Location) : List Location → Action σ StepError (List String)
  | [] => return []
  | loc :: rest => do
    let removed ← visit dir top loc
    return removed.toList ++ (← entries dir top rest)

/-- Deletes every file below a directory except those that record progress, and gives their
    paths. Directories stay, and so do links to directories. What is no directory is ignored. -/
def keepingSentinels (dir : String) : Action σ StepError (List String) := do
  let m ← Action.machine
  match m.tree.stat m.workDir dir with
  | .ok (top, .directory) =>
    let removed ← entries dir top (m.walkOrder (m.tree.below top))
    Action.note .info .download "Pruned directory"
      [("dir", .text dir), ("removed", .number removed.length)]
    return removed
  | _ => return []

end StepRunner.Prune
