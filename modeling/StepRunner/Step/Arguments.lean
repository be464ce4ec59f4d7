import StepRunner.Step.Error
import StepRunner.Text.Pieces

namespace StepRunner

/-- The arguments of a step: values by keys, in the order in which the keys came first. -/
structure StepArguments where
  entries : List (String × String)
deriving DecidableEq, Repr

namespace StepArguments

/-- No arguments. -/
def empty : StepArguments := ⟨[]⟩

/-- Gives the first entry with the key another value, or adds an entry at the end. -/
def assign (key value : String) : List (String × String) → List (String × String)
  | [] => [(key, value)]
  | (k, v) :: rest => if k = key then (k, value) :: rest else (k, v) :: assign key value rest

/-- The arguments with one of them set. -/
def insert (args : StepArguments) (key value : String) : StepArguments :=
  ⟨assign key value args.entries⟩

/-- The value of a key. -/
def get? (args : StepArguments) (key : String) : Option String := args.entries.lookup key

/-- The value of a key that has to be there and not be empty. -/
def require (args : StepArguments) (key : String) : Except StepError String :=
  match args.get? key with
  | some value =>
    if value = "" then .error (.invalidConfig ("missing required argument `" ++ key ++ "`"))
    else .ok value
  | none => .error (.invalidConfig ("missing required argument `" ++ key ++ "`"))

/-- Splits `key=value` at the first `=`. The key must not be empty; the value may hold `=`. -/
def splitPair (pair : String) : Except StepError (String × String) :=
  match Text.splitOnce '=' pair.toList with
  | none =>
    .error (.invalidConfig ("argument `" ++ pair ++ "` is not of the form key=value"))
  | some ([], _) => .error (.invalidConfig ("argument `" ++ pair ++ "` has an empty key"))
  | some (key, value) => .ok (String.ofList key, String.ofList value)

/-- Adds the arguments that `key=value` pairs give, in order. -/
def addPairs (args : StepArguments) : List String → Except StepError StepArguments
  | [] => .ok args
  | pair :: rest => do
    let (key, value) ← splitPair pair
    addPairs (args.insert key value) rest

/-- The arguments that `key=value` pairs give. -/
def ofPairs (pairs : List String) : Except StepError StepArguments := empty.addPairs pairs

end StepArguments

end StepRunner
