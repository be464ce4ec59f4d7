namespace StepRunner.Log

/-- How grave an event is. -/
inductive Level where
  | error
  | warn
  | info
  | debug
  | trace
deriving DecidableEq, Repr

/-- The part of the program that an event comes from. -/
inductive Channel where
  | program
  | lifecycle
  | command
  | compile
  | bench
  | download
  | sync
  | gsutil
  | http
deriving DecidableEq, Repr

/-- The name under which filters know a channel. -/
def Channel.name : Channel → String
  | .program => "slave_step"
  | .lifecycle => "buildstep_core::step"
  | .command => "buildstep_core::shell"
  | .compile => "slave_steps::android_compile"
  | .bench => "slave_steps::bench_pictures"
  | .download => "slave_steps::download_skps"
  | .sync => "gs_sync::sync"
  | .gsutil => "gs_sync::gsutil"
  | .http => "gs_sync::http"

/-- The value of a field of an event. -/
inductive Value where
  | number (value : Nat)
  | text (value : String)
deriving DecidableEq, Repr

/-- The value as it is written into a line. -/
def Value.written : Value → String
  | .number n => toString n
  | .text s => s

/-- A stretch of work that events may lie in. -/
structure Span where
  name : String
  level : Level
  channel : Channel
  fields : List (String × Value)
deriving DecidableEq, Repr

/-- One event of the log. -/
structure Event where
  level : Level
  channel : Channel
  message : String
  fields : List (String × Value)
  span : Option Span
deriving DecidableEq, Repr

end StepRunner.Log
