import StepRunner.Storage.Error

namespace StepRunner

/-- Why a build step failed. -/
inductive StepError where
  | invalidConfig (reason : String)
  | commandNotFound (executable : String)
  | commandFailed (command : String) (exitCode : Int) (stderr : String)
  | commandTimedOut (command : String) (timeoutSecs : Nat)
  | storage (error : StorageError)
  | io (error : IoError)
  | invalidTransition (reason : String)
deriving DecidableEq, Repr

/-- The text of the error. -/
def StepError.message : StepError → String
  | .invalidConfig reason => "Invalid step configuration: " ++ reason
  | .commandNotFound executable => "Command not found: " ++ executable
  | .commandFailed command exitCode _ =>
    "Command `" ++ command ++ "` failed with exit code " ++ toString exitCode
  | .commandTimedOut command timeoutSecs =>
    "Command `" ++ command ++ "` timed out after " ++ toString timeoutSecs ++ " seconds"
  | .storage error => error.message
  | .io error => "IO error: " ++ error.message
  | .invalidTransition reason => "Invalid step transition: " ++ reason

end StepRunner
