import StepRunner.OsError

namespace StepRunner

/-- Why storage could not be listed or read. -/
inductive StorageError where
  | invalidUrl (url : String)
  | gsutilNotFound
  | gsutilFailed (complaint : String)
  /-- The object's path leads outside the local directory, or to something that is no file. -/
  | invalidObjectPath (path : String)
  | unreadableListing (reason : String)
  | io (error : IoError)
  | json (reason : String)
  | http (reason : String)
deriving DecidableEq, Repr

/-- The text of the error. -/
def StorageError.message : StorageError → String
  | .invalidUrl url => "Invalid storage URL: " ++ url
  | .gsutilNotFound => "gsutil is not installed or not in PATH"
  | .gsutilFailed complaint => "gsutil command failed: " ++ complaint
  | .invalidObjectPath path => "Refusing to sync object outside the target directory: " ++ path
  | .unreadableListing reason => "Failed to parse storage listing: " ++ reason
  | .io error => "IO error: " ++ error.message
  | .json reason => "JSON parsing error: " ++ reason
  | .http reason => "HTTP error: " ++ reason

end StepRunner
