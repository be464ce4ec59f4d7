import StepRunner.Process.Launch
import StepRunner.Storage.Listing
import StepRunner.Text.Quoted

namespace StepRunner.Gsutil

variable {σ : Type}

private def hasNul (text : String) : Bool := '\x00' ∈ text.toList

/-- The program that a call of the tool starts. -/
def start (executable : String) (arguments : List String) (m : Machine) :
    Except IoError ProgramCall := do
  if (executable :: arguments).any hasNul then throw .nulInCommand
  let launch : Launch := ⟨executable, arguments, m.environment, m.workDir⟩
  launch.programCall m.tree false none

private def outputText (octets : List UInt8) : List Char := Text.decodeUtf8Lossy octets

/-- Runs the tool and gives what it wrote. -/
def call (programs : Programs) (executable : String) (arguments : List String) :
    Action σ StorageError String := do
  Action.note .debug .gsutil "Running gsutil"
    [("gsutil", .text executable), ("args", .text (Text.quotedList arguments))]
  let m ← Action.machine
  match start executable arguments m with
  | .error e => throw (if e = .notFound then .gsutilNotFound else .io e)
  | .ok programCall =>
    let execution := programs m.now programCall m.tree
    Action.modifyMachine fun m => { m with tree := execution.tree }
    if execution.ending = .exited 0 then return String.ofList (outputText execution.stdout)
    else
      throw (.gsutilFailed
        (String.ofList (Text.trim Text.isBlank (outputText execution.stderr))))

/-- Whether the tool complains of nothing but that there are no objects. -/
def tellsOfNoObjects (complaint : String) : Bool :=
  Text.occurs "matched no objects".toList complaint.toList

/-- The tool as storage. -/
def storage (programs : Programs) (executable : String) : Storage σ where
  list base dir := do
    let url := Storage.joinUrl base dir
    match ← (call programs executable ["ls", "-l", "-r", url]).outcome with
    | .ok listing => ExceptT.mk (pure (Storage.Listing.objects listing url))
    | .error (.gsutilFailed complaint) =>
      if tellsOfNoObjects complaint then return [] else throw (.gsutilFailed complaint)
    | .error e => throw e
  download base dir object destination := do
    let url := Storage.joinUrl (Storage.joinUrl base dir) object.relativePath
    let _ ← call programs executable ["cp", url, destination]

end StepRunner.Gsutil
