import StepRunner.Storage.Gsutil
import StepRunner.Storage.Http
import StepRunner.Text.Ascii

namespace StepRunner

/-- How storage is reached: by a command line tool or over HTTP. -/
structure GsConfig where
  useTool : Bool
  toolPath : String
  apiBase : String
  downloadBase : String
deriving DecidableEq, Repr

namespace GsConfig

/-- The tool, and the usual server beside it. -/
def default : GsConfig :=
  ⟨true, "gsutil", HttpStorage.defaultApiBase, HttpStorage.defaultDownloadBase⟩

/-- Whether a variable says yes. -/
def saysYes (value : String) : Bool := ["1", "true", "yes"].contains (Text.lowerAscii value)

/-- What the environment asks for. -/
def ofEnvironment (env : Environment) : GsConfig where
  useTool := !((env.get? "GS_USE_HTTP").any saysYes)
  toolPath := (env.get? "GSUTIL_PATH").getD default.toolPath
  apiBase := (env.get? "GS_API_BASE").getD default.apiBase
  downloadBase := (env.get? "GS_DOWNLOAD_BASE").getD default.downloadBase

/-- The same over HTTP. -/
def withHttp (config : GsConfig) : GsConfig := { config with useTool := false }

/-- The storage that is reached so. -/
def storage (config : GsConfig) (programs : Programs) : Storage Network :=
  if config.useTool then Gsutil.storage programs config.toolPath
  else (HttpStorage.ofBases config.apiBase config.downloadBase).storage

end GsConfig

end StepRunner
