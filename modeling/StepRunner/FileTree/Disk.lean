import StepRunner.FileTree.Lookup
import StepRunner.Text.Blank
import StepRunner.Text.Quoted

namespace StepRunner

/-- An operation on the file tree. What it changed before it failed stays changed. -/
abbrev Disk := ExceptT IoError (StateM FileTree)

namespace Disk

/-- The path without slashes at its end. -/
def withoutEndSlashes (path : String) : String :=
  String.ofList (Text.trimEnd (· = '/') path.toList)

/-- Whether a path ends in a slash. -/
def endsInSlash (path : String) : Bool := path.toList.getLast? = some '/'

/-- Where a path leads without the slashes at its end, which count for its length. The last link is
    not followed. -/
def findBare (t : FileTree) (here : Location) (path : String) : Except IoError FileTree.Target :=
  if '\x00' ∉ path.toList ∧ FileTree.maxPath < Text.utf8Length path.toList then
    .error .nameTooLong
  else t.find here false (withoutEndSlashes path)

/-- Makes a directory. The one that it lies in has to be there, and it must not be. -/
def makeDirectory (here : Location) (path : String) : Disk Unit := do
  let t ← get
  if path ≠ "" ∧ withoutEndSlashes path = "" ∧ path.length ≤ FileTree.maxPath then
    throw .alreadyExists
  match ← ExceptT.mk (pure (findBare t here path)) with
  | .entry .. => throw .alreadyExists
  | .vacant loc => set (t.put loc .directory)

/-- A path and the paths above it, the nearest first; at most `fuel` of them. -/
def ancestry : (fuel : Nat) → String → List String
  | 0, _ => []
  | fuel + 1, path =>
    path :: match Path.parent? path with
      | some above => ancestry fuel above
      | none => []

/-- Makes the first of `paths`, which goes up from it, and whatever is missing above it. -/
def makeWithAncestors (here : Location) : List String → Disk Unit
  | [] => throw (.other "failed to create whole tree")
  | path :: above => do
    if path = "" then return
    let t ← get
    match ExceptT.run (makeDirectory here path) t with
    | (.ok (), made) => set made
    | (.error e, _) =>
      if e = .notFound then
        makeWithAncestors here above
        let t ← get
        match ExceptT.run (makeDirectory here path) t with
        | (.ok (), made) => set made
        | (.error e, _) => if t.isDirectory here path then return else throw e
      else if t.isDirectory here path then return
      else throw e

/-- Makes a directory, and the ones above it, unless they are there. -/
def makeDirectories (here : Location) (path : String) : Disk Unit :=
  makeWithAncestors here (ancestry (path.length + 1) path)

/-- Writes a whole file: the one that a path leads to, or a new one. -/
def writeFile (now : Instant) (here : Location) (path : String) (contents : List UInt8) :
    Disk Unit := do
  let t ← get
  if endsInSlash path then
    let _ ← ExceptT.mk (pure (findBare t here path))
    throw .isADirectory
  match ← ExceptT.mk (pure (t.find here true path)) with
  | .entry _ .directory => throw .isADirectory
  | .entry loc (.file data) =>
    set (t.put loc (.file { data with contents, modified := now }))
  | .entry _ (.link _) => throw .tooManyLinks
  | .vacant loc => set (t.put loc (.file ⟨contents, now, false⟩))

/-- An error with the path that it is about. -/
def atPath (path : String) (e : IoError) : IoError :=
  .other (e.message ++ " at path " ++ Text.quotedPath path)

/-- Makes an empty file in a directory under the first of `names` that is free there, and gives
    its path. -/
def makeFirstFree (now : Instant) (here : Location) (directory : String) :
    (names : List String) → Disk String
  | [] => throw (atPath directory (.other "too many temporary files exist"))
  | name :: others => do
    let t ← get
    let path := Path.join directory name
    match t.find here false path with
    | .ok (.entry ..) => makeFirstFree now here directory others
    | .ok (.vacant loc) =>
      set (t.put loc (.file ⟨[], now, false⟩))
      return path
    | .error e => throw (atPath path e)

/-- Makes an empty file in a directory under the first of `names` that is free there, and gives
    the path from the root to it. -/
def makeTemporary (now : Instant) (here : Location) (directory : String) (names : List String) :
    Disk String :=
  makeFirstFree now here (Path.join (FileTree.pathTo here) directory) names

/-- Splits a path into the way to its last name and that name. -/
def splitLast (path : String) : String × List Char :=
  let bare := (withoutEndSlashes path).toList
  let last := (bare.reverse.takeWhile (· ≠ '/')).reverse
  (String.ofList (bare.take (bare.length - last.length)), last)

/-- Moves a file to another path, in the place of what is there, unless that is a directory. -/
def renameFile (here : Location) (source destination : String) : Disk Unit := do
  let t ← get
  let (way, last) := splitLast destination
  if last = ['.'] ∨ last = ['.', '.'] then
    let _ ← ExceptT.mk (pure (t.find here true (if way = "" then "." else way)))
    throw (.os 16)
  let target ← ExceptT.mk (pure (findBare t here destination))
  match t.find here false source with
  | .error e => throw e
  | .ok (.vacant _) => throw .notFound
  | .ok (.entry from_ moved) =>
    if moved = .directory then throw .isADirectory
    if endsInSlash destination then throw .notADirectory
    match target with
    | .entry _ .directory => throw .isADirectory
    | .entry loc _ | .vacant loc =>
      if loc = from_ then return
      set ((t.erase from_).put loc moved)

/-- Sets the modification time of the file that a path leads to. -/
def setModified (here : Location) (path : String) (time : Instant) : Disk Unit := do
  let t ← get
  match ← ExceptT.mk (pure (t.stat here path)) with
  | (loc, .file data) => set (t.put loc (.file { data with modified := time }))
  | (_, .directory) => throw .isADirectory
  | (_, .link _) => throw .tooManyLinks

/-- Removes a file or link, without following it. -/
def removeFile (here : Location) (path : String) : Disk Unit := do
  let t ← get
  match ← ExceptT.mk (pure (t.find here false path)) with
  | .vacant _ => throw .notFound
  | .entry _ .directory => throw .isADirectory
  | .entry loc _ => set (t.erase loc)

end Disk

end StepRunner
