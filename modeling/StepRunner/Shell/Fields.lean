import StepRunner.Shell.Pattern
import StepRunner.Shell.State

namespace StepRunner.Shell

/-- A character that the expansion of a word gives, or what lies between characters. -/
inductive Expanded where
  /-- Stands in the word itself. -/
  | plain (c : Char)
  | quoted (c : Char)
  /-- Comes from a value that is not quoted, and may separate fields. -/
  | value (c : Char)
  /-- Makes a field of what is otherwise empty. -/
  | mark
  /-- Separates fields. -/
  | boundary
deriving DecidableEq, Repr

/-- The character of a part, and whether it is quoted. -/
def Expanded.marked? : Expanded → Option Marked
  | .plain c | .value c => some (c, false)
  | .quoted c => some (c, true)
  | .mark | .boundary => none

/-- The text of an expansion that is not split into fields. -/
def unsplit (parts : List Expanded) : List Marked := parts.filterMap Expanded.marked?

/-- Splits an expansion into fields: at boundaries, and where the characters of `separators` come
    from values. `current` is the field that has begun, if one has. -/
def fields (separators : List Char) (current : Option (List Marked)) :
    List Expanded → List (List Marked)
  | [] => current.toList
  | .boundary :: rest => current.toList ++ fields separators none rest
  | .mark :: rest => fields separators (some (current.getD [])) rest
  | .value c :: rest =>
    if separators.contains c then
      if c = ' ' ∨ c = '\t' ∨ c = '\n' then current.toList ++ fields separators none rest
      else current.getD [] :: fields separators none rest
    else fields separators (some (current.getD [] ++ [(c, false)])) rest
  | .plain c :: rest => fields separators (some (current.getD [] ++ [(c, false)])) rest
  | .quoted c :: rest => fields separators (some (current.getD [] ++ [(c, true)])) rest

/-- The parts of a field between slashes. -/
def pathParts (field : List Marked) : List (List Marked) :=
  match field with
  | [] => [[]]
  | (c, quoted) :: rest =>
    if c = '/' then [] :: pathParts rest
    else
      match pathParts rest with
      | [] => [[(c, quoted)]]
      | first :: others => ((c, quoted) :: first) :: others

/-- The paths that a pattern's parts lead to, going on from a directory and the text so far. -/
def matchingPaths (s : State) (dir : Location) (sofar : List Char) :
    List (List Marked) → List (List Char)
  | [] => []
  | part :: rest =>
    let names :=
      if isPattern part then
        let pattern := toPattern part
        let found := ((s.tree.children dir).map ofText).filter fun name =>
          isMatch pattern name && (name.head? ≠ some '.' || part.head?.map (·.1) = some '.')
        found.mergeSort fun a b => String.ofList a ≤ String.ofList b
      else [part.map (·.1)]
    names.flatMap fun name =>
      let path := sofar ++ name
      let text := toText path
      match rest with
      | [] => if s.tree.hasPath s.workDir text ∨ path.getLast? = some '/' then [path] else []
      | _ :: _ =>
        let here := if text = "" then .ok (([] : Location), Entry.directory)
          else s.tree.stat s.workDir text
        match here with
        | .ok (loc, .directory) => matchingPaths s loc (path ++ ['/']) rest
        | _ => []

/-- The words that a field stands for: the paths that match it, or itself. -/
def pathsOf (s : State) (field : List Marked) : List (List Char) :=
  let text := field.map (·.1)
  if isPattern field then
    match matchingPaths s (if text.head? = some '/' then [] else s.workDir) [] (pathParts field) with
    | [] => [text]
    | paths => paths
  else [text]

end StepRunner.Shell
