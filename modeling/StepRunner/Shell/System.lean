import StepRunner.Shell.Evaluation

namespace StepRunner.Shell

/-- The steps after which a script is taken to run on for ever. -/
def maxSteps : Nat := 1000000

/-- The state in which a program starts. -/
def State.ofCall (now : Instant) (call : ProgramCall) (tree : FileTree) : State where
  tree
  workDir := call.workDir
  bindings := (call.environment.map (·.1)).eraseDups.map fun name =>
    ⟨ofText name, ofText ((call.environment.get? name).getD ""), true⟩
  name := ofText (call.arguments.headD "")
  parameters := []
  status := 0
  line := 0
  remaining := call.timeLimit.map (· * 1000000000)
  collected := [[], []]
  descriptors := [(1, .collected 0), (2, .collected 1)]
  input := []
  now

/-- How a run ended. -/
def endingOf (result : Except Interrupt Unit) (status : Nat) : Ending :=
  match result with
  | .ok () => .exited status
  | .error (.leave status) => .exited status
  | .error .killed => .signalled
  | .error .unfinished => .unfinished
  | .error (.breakLoop _) | .error (.nextRound _) => .exited status

/-- What the shell and the tools beside it do. -/
def programs : Programs := fun now call tree =>
  let (result, s) :=
    (runNative maxSteps call.program call.arguments).run (State.ofCall now call tree)
  ⟨endingOf result s.status, (s.collected.getD 0 []).reverse, (s.collected.getD 1 []).reverse,
    s.tree⟩

/-- The names of the programs. -/
def programNames : List String :=
  ["sh", "cat", "echo", "sleep", "ls", "rm", "tail", "true", "false"]

/-- A file tree with the programs and the file that swallows everything. -/
def systemTree (now : Instant) : FileTree :=
  let dirs : List Location := [["bin"], ["usr"], ["bin", "usr"], ["dev"], ["tmp"]]
  let tree := dirs.foldl (fun t dir => t.put dir .directory) FileTree.empty
  let tree := tree.put nullDevice (.file ⟨[], now, false⟩)
  [["bin"], ["bin", "usr"]].foldl (fun t dir =>
    programNames.foldl (fun t name =>
      t.put (name :: dir) (.file ⟨ProgramCall.nativeImage name, now, true⟩)) t) tree

end StepRunner.Shell
