import StepRunner.Shell.Format
import StepRunner.Shell.State

namespace StepRunner.Shell

/-- A test of one argument. -/
def unaryTest? (s : State) (operator operand : List Char) : Option Bool :=
  let path := toText operand
  let found := s.tree.stat s.workDir path
  let isLink := match s.tree.find s.workDir false path with
    | .ok (.entry _ (.link _)) => true
    | _ => false
  match String.ofList operator with
  | "-n" => some (operand ≠ [])
  | "-z" => some (operand = [])
  | "-e" | "-r" | "-w" => some found.isOk
  | "-f" => some (match found with | .ok (_, .file _) => true | _ => false)
  | "-d" => some (match found with | .ok (_, .directory) => true | _ => false)
  | "-s" => some (match found with
    | .ok (_, .file data) => data.contents ≠ []
    | .ok (_, .directory) => true
    | _ => false)
  | "-x" => some (match found with
    | .ok (_, .file data) => data.executable
    | .ok (_, .directory) => true
    | _ => false)
  | "-h" | "-L" => some isLink
  | _ => none

/-- A test of two arguments; the outer `none` is for an operator that there is not, the inner one
    for an operand that is no number. -/
def binaryTest? (operator left right : List Char) : Option (Except (List Char) Bool) :=
  let numbers := fun (compare : Int → Int → Bool) =>
    some (match numberOf left, numberOf right with
      | (a, true), (b, true) => .ok (compare a b)
      | (_, false), _ => .error left
      | _, _ => .error right)
  match String.ofList operator with
  | "=" => some (.ok (left = right))
  | "!=" => some (.ok (left ≠ right))
  | "-eq" => numbers fun a b => a = b
  | "-ne" => numbers fun a b => a ≠ b
  | "-lt" => numbers fun a b => a < b
  | "-le" => numbers fun a b => a ≤ b
  | "-gt" => numbers fun a b => a > b
  | "-ge" => numbers fun a b => a ≥ b
  | _ => none

/-- What a test says: whether it holds, or why it is none. -/
def holds (s : State) : List (List Char) → Except (List Char) Bool
  | [] => .ok false
  | [operand] => .ok (operand ≠ [])
  | [['!'], operand] => .ok (operand = [])
  | [operator, operand] =>
    match unaryTest? s operator operand with
    | some result => .ok result
    | none => .error (operator ++ ": unexpected operator".toList)
  | [left, operator, right] =>
    match binaryTest? operator left right with
    | some (.ok result) => .ok result
    | some (.error operand) => .error ("Illegal number: ".toList ++ operand)
    | none =>
      if left = ['!'] then (holds s [operator, right]).map (!·)
      else if operator = "-a".toList then .ok (left ≠ [] && right ≠ [])
      else if operator = "-o".toList then .ok (left ≠ [] || right ≠ [])
      else .error (operator ++ ": unexpected operator".toList)
  | first :: second :: third :: fourth :: rest =>
    if first = ['!'] then (holds s (second :: third :: fourth :: rest)).map (!·)
    else .error (second ++ ": unexpected operator".toList)

end StepRunner.Shell
