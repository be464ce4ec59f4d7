import StepRunner.Storage.Error
import StepRunner.Text.Blank
import StepRunner.Text.Pieces

namespace StepRunner.Storage

/-- Whether a character separates the parts of a URL's path. -/
def isSlash (c : Char) : Bool := c = '/'

/-- A text without slashes at its ends. -/
def trimSlashes (text : List Char) : List Char := Text.trim isSlash text

/-- A text without slashes at its end. -/
def trimEndSlashes (text : List Char) : List Char := Text.trimEnd isSlash text

/-- `rel` below `base`, with exactly one slash between them. -/
def joinUrl (base rel : String) : String :=
  let base := trimEndSlashes base.toList
  let rel := trimSlashes rel.toList
  String.ofList (if rel = [] then base else base ++ '/' :: rel)

/-- The bucket of `gs://bucket/path`, and the path without slashes at its ends. -/
def bucketAndPath (url : String) : Except StorageError (String × String) :=
  match Text.dropStart? "gs://".toList url.toList with
  | none => .error (.invalidUrl url)
  | some rest =>
    let (bucket, path) := (Text.splitOnce '/' rest).getD (rest, [])
    if bucket = [] then .error (.invalidUrl url)
    else .ok (String.ofList bucket, String.ofList (trimSlashes path))

end StepRunner.Storage
