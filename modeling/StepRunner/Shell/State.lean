import StepRunner.Process.Launch
import StepRunner.Shell.Octets

namespace StepRunner.Shell

/-- What a descriptor is open on. -/
inductive Stream where
  /-- Octets that are collected, by their number. -/
  | collected (index : Nat)
  | file (loc : Location)
  | nowhere
deriving DecidableEq, Repr

structure Variable where
  name : List Char
  value : List Char
  exported : Bool
deriving DecidableEq, Repr

/-- The state of a shell. `remaining` is the time left in nanoseconds, if it is limited;
    `collected` are the outputs so far, each with its last octet first. -/
structure State where
  tree : FileTree
  workDir : Location
  bindings : List Variable
  name : List Char
  parameters : List (List Char)
  status : Nat
  line : Nat
  remaining : Option Nat
  collected : List (List UInt8)
  descriptors : List (Nat × Stream)
  input : List UInt8
  now : Instant

/-- What breaks off the commands that come next. -/
inductive Interrupt where
  | leave (status : Nat)
  | killed
  | unfinished
  | breakLoop (levels : Nat)
  | nextRound (levels : Nat)
deriving DecidableEq, Repr

/-- The evaluation of commands, which may be broken off. -/
abbrev Evaluation := ExceptT Interrupt (StateM State)

namespace State

/-- The value of a variable. -/
def get? (s : State) (name : List Char) : Option (List Char) :=
  (s.bindings.find? (·.name = name)).map (·.value)

/-- The state with a variable set. -/
def assign (s : State) (name value : List Char) : State :=
  if s.bindings.any (·.name = name) then
    { s with bindings := s.bindings.map fun v => if v.name = name then { v with value } else v }
  else { s with bindings := s.bindings ++ [⟨name, value, false⟩] }

/-- The state with a variable that is handed on to programs. -/
def exportName (s : State) (name : List Char) : State :=
  let s := if s.bindings.any (·.name = name) then s else s.assign name []
  { s with bindings := s.bindings.map fun v =>
      if v.name = name then { v with exported := true } else v }

/-- The environment that programs are given. -/
def environment (s : State) : Environment :=
  (s.bindings.filter (·.exported)).map fun v => (toText v.name, toText v.value)

/-- The state with a descriptor open on a stream. -/
def lead (s : State) (descriptor : Nat) (stream : Stream) : State :=
  { s with descriptors := (descriptor, stream) :: s.descriptors.filter (·.1 ≠ descriptor) }

/-- The state after octets went to a stream. -/
def send (s : State) (stream : Stream) (octets : List UInt8) : State :=
  match stream with
  | .nowhere => s
  | .collected index => { s with collected := s.collected.modify index octets.reverseAux }
  | .file loc =>
    match s.tree.get? loc with
    | some (.file data) =>
      let data := { data with contents := data.contents ++ octets, modified := s.now }
      { s with tree := s.tree.put loc (.file data) }
    | _ => s

/-- The state after octets were written to a descriptor. -/
def write (s : State) (descriptor : Nat) (octets : List UInt8) : State :=
  if octets = [] then s
  else
    match s.descriptors.lookup descriptor with
    | some stream => s.send stream octets
    | none => s

end State

/-- Writes a text to a descriptor. -/
def put (descriptor : Nat) (text : List Char) : Evaluation Unit :=
  modify fun s => s.write descriptor (toOctets text)

/-- Writes a message of the shell itself. -/
def complain (message : List Char) : Evaluation Unit := do
  let s ← get
  put 2 (s.name ++ ": ".toList ++ Text.decimal s.line ++ ": ".toList ++ message ++ ['\n'])

/-- Sets the status of the last command. -/
def setStatus (status : Nat) : Evaluation Unit := modify fun s => { s with status }

end StepRunner.Shell
