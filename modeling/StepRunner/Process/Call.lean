import StepRunner.World

namespace StepRunner

/-- A program as it is started, after every script has been handed to its interpreter. The first
    of `arguments` is the name that it was called by. `timeLimit` is in seconds. -/
structure ProgramCall where
  program : String
  arguments : List String
  environment : Environment
  workDir : Location
  timeLimit : Option Nat
deriving DecidableEq, Repr

/-- How a program came to its end, if it did within its time. -/
inductive Ending where
  | exited (status : Nat)
  | signalled
  | unfinished
deriving DecidableEq, Repr

/-- What a program did: its two outputs, its end and the file tree that it left. -/
structure Execution where
  ending : Ending
  stdout : List UInt8
  stderr : List UInt8
  tree : FileTree

/-- What the programs of a machine do, each call at some moment and on some file tree. -/
abbrev Programs := Instant → ProgramCall → FileTree → Execution

namespace ProgramCall

/-- The octets that the file of a native program starts with. -/
def nativeMark : List UInt8 := [0x7F, 0x45, 0x4C, 0x46, 0x20]

/-- The contents of the file of a native program. -/
def nativeImage (program : String) : List UInt8 := nativeMark ++ Text.encodeUtf8 program.toList

/-- The native program that a file with these contents is, if it is one. -/
def nativeProgram? (contents : List UInt8) : Option String :=
  if nativeMark.isPrefixOf contents then
    (Text.decodeUtf8? (contents.drop nativeMark.length)).map String.ofList
  else none

end ProgramCall

end StepRunner
