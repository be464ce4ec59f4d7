import StepRunner.Text.Pieces
import StepRunner.Text.Utf8

namespace StepRunner

/-- One step of a path as it is written. -/
inductive Component where
  | root
  | current
  | parent
  | normal (name : List Char)
deriving DecidableEq, Repr

namespace Path

/-- The parts of a path between slashes. -/
def segments (path : List Char) : List (List Char) := Text.pieces '/' path

/-- What a segment after the start of a path means: nothing if it is empty or a dot. -/
def segmentComponent (segment : List Char) : Option Component :=
  if segment = [] ∨ segment = ['.'] then none
  else if segment = ['.', '.'] then some .parent
  else some (.normal segment)

/-- What the start of a path means: a slash, or a dot that is a segment. The second part is the
    length of that start. -/
def start (path : List Char) : List Component × Nat :=
  match path with
  | '/' :: _ => ([.root], 1)
  | ['.'] => ([.current], 1)
  | '.' :: '/' :: _ => ([.current], 1)
  | _ => ([], 0)

/-- The steps of a path. Repeated slashes and dots after the start do not count. -/
def components (path : String) : List Component :=
  let chars := path.toList
  let (first, length) := start chars
  first ++ (segments (chars.drop length)).filterMap segmentComponent

/-- The path `second` as seen from `first`: all of it if it is absolute, and otherwise after
    exactly one more slash if `first` does not end in one. -/
def join (first second : String) : String :=
  let a := first.toList
  let b := second.toList
  if b.head? = some '/' ∨ a = [] then second
  else if a.getLast? = some '/' then String.ofList (a ++ b)
  else String.ofList (a ++ '/' :: b)

/-- The segments without the last ones that mean nothing. -/
def significant (segments : List (List Char)) : List (List Char) :=
  (segments.reverse.dropWhile fun s => (segmentComponent s).isNone).reverse

/-- The path without its last step; the root and the empty path have none. -/
def parent? (path : String) : Option String :=
  let chars := path.toList
  let (first, length) := start chars
  match significant (segments (chars.drop length)) with
  | [] => if first = [.current] then some "" else none
  | kept =>
    let above := significant kept.dropLast
    some (String.ofList (chars.take length ++ Text.joinPieces '/' above))

end Path

end StepRunner
