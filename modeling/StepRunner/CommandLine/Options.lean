import StepRunner.Step.Context
import StepRunner.Text.Decimal
import StepRunner.World

namespace StepRunner.CommandLine

/-- The steps that can be asked for. -/
inductive StepName where
  | compile
  | benchPictures
  | androidBenchPictures
  | downloadSkps
deriving DecidableEq, Repr

/-- The step that a word asks for. -/
def StepName.ofWord? : String → Option StepName
  | "compile" => some .compile
  | "bench-pictures" => some .benchPictures
  | "android-bench-pictures" => some .androidBenchPictures
  | "download-skps" => some .downloadSkps
  | _ => none

/-- Why a command line runs no step. -/
inductive Halt where
  /-- It is not understood. -/
  | rejected
  | help
  | version
deriving DecidableEq, Repr

/-- Where a value comes from. -/
inductive Source where
  | default
  | environment
  | given
deriving DecidableEq, Repr

/-- A later source outdoes an earlier one. -/
def Source.rank : Source → Nat
  | .default => 0
  | .environment => 1
  | .given => 2

/-- A value and its source. -/
structure Setting (α : Type) where
  value : α
  source : Source
deriving Repr

/-- The setting that counts of one before the name of the step and one after it: the latter,
    unless the former comes from a source that outdoes its source. -/
def Setting.merge {α : Type} (before after : Setting α) : Setting α :=
  if after.source.rank < before.source.rank then before else after

/-- The options on one side of the name of the step. -/
structure Given where
  verbose : Bool := false
  json : Bool := false
  useSkpPlaybackFramework : Bool := false
  configuration : Option String := none
  builderName : Option String := none
  perfOutputBasedir : Option String := none
  gmImageSubdir : Option String := none
  parentDir : Option String := none
  timeoutSecs : Option Nat := none
  makeFlags : List String := []
  args : List String := []
deriving DecidableEq, Repr

namespace Given

/-- A value that may be given once. -/
private def once {α : Type} (old : Option α) (value : α) : Except Halt (Option α) :=
  match old with
  | some _ => .error .rejected
  | none => .ok (some value)

/-- A path, which must not be empty. -/
private def path (value : String) : Except Halt String :=
  if value = "" then .error .rejected else .ok value

/-- The options with a flag set, which may be given once; `none` if there is no such flag. -/
def setFlag? (given : Given) (name : String) : Option (Except Halt Given) :=
  let once := fun (old : Bool) (changed : Given) =>
    some (if old then Except.error Halt.rejected else .ok changed)
  match name with
  | "verbose" => once given.verbose { given with verbose := true }
  | "json" => once given.json { given with json := true }
  | "use-skp-playback-framework" =>
    once given.useSkpPlaybackFramework { given with useSkpPlaybackFramework := true }
  | _ => none

/-- The options with a value set; `none` if there is no such option. -/
def setValue? (given : Given) (name value : String) : Option (Except Halt Given) :=
  match name with
  | "configuration" =>
    some do return { given with configuration := ← once given.configuration value }
  | "builder-name" => some do return { given with builderName := ← once given.builderName value }
  | "perf-output-basedir" =>
    some do return { given with
      perfOutputBasedir := ← once given.perfOutputBasedir (← path value) }
  | "gm-image-subdir" =>
    some do return { given with gmImageSubdir := ← once given.gmImageSubdir value }
  | "parent-dir" => some do return { given with parentDir := ← once given.parentDir (← path value) }
  | "timeout-secs" =>
    some do
      match Text.unsigned? Text.maxWord64 value.toList with
      | some n => return { given with timeoutSecs := ← once given.timeoutSecs n }
      | none => throw .rejected
  | "make-flags" => some (.ok { given with makeFlags := given.makeFlags ++ [value] })
  | "args" => some (.ok { given with args := given.args ++ [value] })
  | _ => none

/-- Whether the value of an option may look like another option. -/
def takesAnything (name : String) : Bool := name = "make-flags"

end Given

/-- Whether an argument looks like an option. -/
def looksLikeOption (argument : String) : Bool :=
  match argument.toList with
  | '-' :: _ :: _ => true
  | _ => false

/-- Sets the flags that stand for the letters after a single dash. -/
def readLetters (beforeStep : Bool) (given : Given) : List Char → Except Halt Given
  | [] => .ok given
  | letter :: rest =>
    if letter = 'v' then
      match given.setFlag? "verbose" with
      | some (.ok given) => readLetters beforeStep given rest
      | _ => .error .rejected
    else if letter = 'h' then .error .help
    else if letter = 'V' ∧ beforeStep then .error .version
    else .error .rejected

/-- What comes of asking for help by a word: the words after it have to be the name of one step, or
    that word once more, or nothing. -/
def helpOn : List String → Halt
  | [] => .help
  | [word] => if word = "help" ∨ (StepName.ofWord? word).isSome then .help else .rejected
  | _ => .rejected

/-- Reads options up to the name of the step, or to the end. Gives the options, and the name of
    the step with what follows it. -/
def readOptions (beforeStep : Bool) (given : Given) :
    List String → Except Halt (Given × Option (StepName × List String))
  | [] => .ok (given, none)
  | argument :: rest =>
    match argument.toList with
    | ['-', '-'] => if rest = [] then .ok (given, none) else .error .rejected
    | '-' :: '-' :: long =>
      let name := String.ofList (long.takeWhile (· ≠ '='))
      match (long.dropWhile (· ≠ '=')).tail? with
      | some value =>
        match given.setValue? name (String.ofList value) with
        | some (.ok given) => readOptions beforeStep given rest
        | some (.error halt) => .error halt
        | none => .error .rejected
      | none =>
        if name = "help" then .error .help
        else if name = "version" ∧ beforeStep then .error .version
        else
          match given.setFlag? name with
          | some (.ok given) => readOptions beforeStep given rest
          | some (.error halt) => .error halt
          | none =>
            match rest with
            | [] => .error .rejected
            | value :: rest =>
              if looksLikeOption value ∧ !Given.takesAnything name then .error .rejected
              else
                match given.setValue? name value with
                | some (.ok given) => readOptions beforeStep given rest
                | some (.error halt) => .error halt
                | none => .error .rejected
    | '-' :: letter :: letters =>
      match readLetters beforeStep given (letter :: letters) with
      | .ok given => readOptions beforeStep given rest
      | .error halt => .error halt
    | _ =>
      if !beforeStep then .error .rejected
      else
        match StepName.ofWord? argument with
        | some step => .ok (given, some (step, rest))
        | none => .error (if argument = "help" then helpOn rest else .rejected)

/-- The settings on one side of the name of the step, whatever their source. -/
structure Settings where
  verbose : Setting Bool
  json : Setting Bool
  useSkpPlaybackFramework : Setting Bool
  configuration : Setting String
  builderName : Setting String
  perfOutputBasedir : Setting String
  gmImageSubdir : Setting String
  parentDir : Setting String
  timeoutSecs : Option Nat
  makeFlags : List String
  args : List String

/-- Whether the value of a variable turns a flag off. -/
def turnsOff (value : String) : Bool :=
  ["", "n", "no", "f", "false", "off", "0"].contains (Text.lowerAscii value)

namespace Settings

private def text (given inherited : Option String) (default : String) : Setting String :=
  match given, inherited with
  | some value, _ => ⟨value, .given⟩
  | none, some value => ⟨value, .environment⟩
  | none, none => ⟨default, .default⟩

private def flag (given : Bool) (inherited : Option String) : Setting Bool :=
  match given, inherited with
  | true, _ => ⟨true, .given⟩
  | false, some value => ⟨!turnsOff value, .environment⟩
  | false, none => ⟨false, .default⟩

/-- The settings that options, the environment and defaults give. A directory from the
    environment must not be empty. -/
def ofGiven (env : Environment) (given : Given) : Except Halt Settings :=
  let default : StepContext := {}
  if given.perfOutputBasedir = none ∧ env.get? "PERF_OUTPUT_BASEDIR" = some "" then
    .error .rejected
  else
    .ok {
      verbose := flag given.verbose none
      json := flag given.json none
      useSkpPlaybackFramework :=
        flag given.useSkpPlaybackFramework (env.get? "USE_SKP_PLAYBACK_FRAMEWORK")
      configuration := text given.configuration (env.get? "CONFIGURATION") default.configuration
      builderName := text given.builderName (env.get? "BUILDER_NAME") default.builderName
      perfOutputBasedir := text given.perfOutputBasedir (env.get? "PERF_OUTPUT_BASEDIR")
        default.perfOutputBasedir
      gmImageSubdir := text given.gmImageSubdir none default.gmImageSubdir
      parentDir := text given.parentDir none default.parentDir
      timeoutSecs := given.timeoutSecs
      makeFlags := given.makeFlags
      args := given.args }

private def orBefore (before after : List String) : List String :=
  if after = [] then before else after

/-- The settings that count of those before the name of the step and those after it. A list after
    it takes the place of one before it. -/
def merge (before after : Settings) : Settings where
  verbose := before.verbose.merge after.verbose
  json := before.json.merge after.json
  useSkpPlaybackFramework := before.useSkpPlaybackFramework.merge after.useSkpPlaybackFramework
  configuration := before.configuration.merge after.configuration
  builderName := before.builderName.merge after.builderName
  perfOutputBasedir := before.perfOutputBasedir.merge after.perfOutputBasedir
  gmImageSubdir := before.gmImageSubdir.merge after.gmImageSubdir
  parentDir := before.parentDir.merge after.parentDir
  timeoutSecs := after.timeoutSecs.orElse fun _ => before.timeoutSecs
  makeFlags := orBefore before.makeFlags after.makeFlags
  args := orBefore before.args after.args

/-- The context of the step. -/
def context (settings : Settings) : Except StepError StepContext := do
  let args ← StepArguments.ofPairs settings.args
  return {
    configuration := settings.configuration.value
    makeFlags := settings.makeFlags
    useSkpPlaybackFramework := settings.useSkpPlaybackFramework.value
    builderName := settings.builderName.value
    perfOutputBasedir := settings.perfOutputBasedir.value
    gmImageSubdir := settings.gmImageSubdir.value
    parentDir := settings.parentDir.value
    args
    timeoutSecs := settings.timeoutSecs }

end Settings

/-- What a command line asks for: a step and its settings. -/
def read (env : Environment) (arguments : List String) : Except Halt (StepName × Settings) := do
  let (before, found) ← readOptions true {} arguments
  let some (step, rest) := found | throw .rejected
  let (after, _) ← readOptions false {} rest
  let after ← Settings.ofGiven env after
  let before ← Settings.ofGiven env before
  return (step, before.merge after)

end StepRunner.CommandLine
