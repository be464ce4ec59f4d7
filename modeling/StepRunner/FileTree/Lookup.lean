import StepRunner.FileTree.Basic
import StepRunner.OsError
import StepRunner.Path

namespace StepRunner

/-- The way a path leads through a file tree: from the root or not, and by which names. -/
structure Route where
  absolute : Bool
  steps : List String
deriving DecidableEq, Repr

namespace Route

/-- The way of a path. A slash at its end asks for a directory, as one more dot does. -/
def ofPath (path : List Char) : Route :=
  let names := (Path.segments path).filter (· ≠ [])
  let last := if path.getLast? = some '/' then ["."] else []
  ⟨path.head? = some '/', names.map String.ofList ++ last⟩

end Route

namespace FileTree

/-- Where a path leads: to an entry, or to a place in a directory that is still free. -/
inductive Target where
  | entry (loc : Location) (entry : Entry)
  | vacant (loc : Location)
deriving DecidableEq, Repr

/-- The most links that are followed on the way of one path. -/
def maxLinks : Nat := 40

/-- The most octets of a path. -/
def maxPath : Nat := 4095

/-- Goes from the directory `here` by `steps` as far as there are no links that are followed. Behind
    the first one `jump` goes on; the last step is followed only if `follow` says so. -/
def walkSteps (t : FileTree) (follow : Bool)
    (jump : Location → List String → Except IoError Target) (here : Location) :
    List String → Except IoError Target
  | [] => .ok (.entry here .directory)
  | step :: rest =>
    if step = "." then walkSteps t follow jump here rest
    else if step = ".." then walkSteps t follow jump here.tail rest
    else if maxName < Text.utf8Length step.toList then .error .nameTooLong
    else
      match t.get? (step :: here) with
      | none => if rest = [] then .ok (.vacant (step :: here)) else .error .notFound
      | some .directory => walkSteps t follow jump (step :: here) rest
      | some (.file data) =>
        if rest = [] then .ok (.entry (step :: here) (.file data)) else .error .notADirectory
      | some (.link target) =>
        if rest = [] ∧ follow = false then .ok (.entry (step :: here) (.link target))
        else
          let route := Route.ofPath target.toList
          jump (if route.absolute then [] else here) (route.steps ++ rest)

/-- Goes from a directory by some steps, following links on the way, at most `links` of them. -/
def walk (t : FileTree) (follow : Bool) (links : Nat) :
    Location → List String → Except IoError Target :=
  walkSteps t follow <|
    match links with
    | 0 => fun _ _ => .error .tooManyLinks
    | links + 1 => walk t follow links

theorem walk_nil (t : FileTree) (follow : Bool) (links : Nat) (here : Location) :
    t.walk follow links here [] = .ok (.entry here .directory) := by
  cases links <;> rfl

theorem walk_cons (t : FileTree) (follow : Bool) (links : Nat) (here : Location) (step : String)
    (rest : List String) : t.walk follow links here (step :: rest) =
      if step = "." then t.walk follow links here rest
      else if step = ".." then t.walk follow links here.tail rest
      else if maxName < Text.utf8Length step.toList then .error .nameTooLong
      else
        match t.get? (step :: here) with
        | none => if rest = [] then .ok (.vacant (step :: here)) else .error .notFound
        | some .directory => t.walk follow links (step :: here) rest
        | some (.file data) =>
          if rest = [] then .ok (.entry (step :: here) (.file data)) else .error .notADirectory
        | some (.link target) =>
          if rest = [] ∧ follow = false then .ok (.entry (step :: here) (.link target))
          else
            match links with
            | 0 => .error .tooManyLinks
            | links + 1 =>
              let route := Route.ofPath target.toList
              t.walk follow links (if route.absolute then [] else here) (route.steps ++ rest) := by
  cases links <;> rfl

/-- Where a path leads as seen from `here`. -/
def find (t : FileTree) (here : Location) (follow : Bool) (path : String) :
    Except IoError Target :=
  let chars := path.toList
  if '\x00' ∈ chars then .error .nulInPath
  else if chars = [] then .error .notFound
  else if maxPath < Text.utf8Length chars then .error .nameTooLong
  else
    let route := Route.ofPath chars
    walk t follow maxLinks (if route.absolute then [] else here) route.steps

/-- The place and entry that a path leads to. -/
def stat (t : FileTree) (here : Location) (path : String) : Except IoError (Location × Entry) :=
  match t.find here true path with
  | .ok (.entry loc entry) => .ok (loc, entry)
  | .ok (.vacant _) => .error .notFound
  | .error e => .error e

/-- The path from the root to a place. -/
def pathTo (loc : Location) : String :=
  String.ofList ('/' :: Text.joinPieces '/' (loc.reverse.map String.toList))

/-- Whether a path leads to an entry. -/
def hasPath (t : FileTree) (here : Location) (path : String) : Bool :=
  (t.stat here path).isOk

/-- Whether a path leads to a directory. -/
def isDirectory (t : FileTree) (here : Location) (path : String) : Bool :=
  match t.stat here path with
  | .ok (_, .directory) => true
  | _ => false

end FileTree

end StepRunner
