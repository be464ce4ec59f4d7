import StepRunner.Text.Decimal

namespace StepRunner

/-- A JSON value as it was written. Members of an object keep their order and may repeat.

    A string or name with an unpaired surrogate escape stands for no text: as a value it is
    `unpaired`, as a name it is `none`. Numbers other than plain natural ones keep their text. -/
inductive Json where
  | null
  | bool (value : Bool)
  | natural (value : Nat)
  | numeral (text : String)
  | string (text : String)
  | unpaired
  | array (elements : List Json)
  | object (members : List (Option String × Json))
deriving Repr, Inhabited

namespace Json

/-- An object with the given names. -/
def record (members : List (String × Json)) : Json :=
  .object (members.map fun (name, value) => (some name, value))

/-- A list of texts. -/
def strings (texts : List String) : Json := .array (texts.map .string)

/-- A value that may be absent. -/
def ofOption {α : Type} (encode : α → Json) : Option α → Json
  | none => .null
  | some value => encode value

/-- The value of the first member with the given name. -/
def member? (name : String) : Json → Option Json
  | .object members => members.lookup (some name)
  | _ => none

/-- The text of a string. -/
def string? : Json → Option String
  | .string text => some text
  | _ => none

/-- The value of `true` or `false`. -/
def bool? : Json → Option Bool
  | .bool value => some value
  | _ => none

/-- A natural number that is at most `limit`. -/
def natural? (limit : Nat) : Json → Option Nat
  | .natural value => if value ≤ limit then some value else none
  | _ => none

/-- The elements of an array, each decoded. -/
def list? {α : Type} (decode : Json → Option α) : Json → Option (List α)
  | .array elements => elements.mapM decode
  | _ => none

/-- A value that `null` stands for the absence of. -/
def option? {α : Type} (decode : Json → Option α) : Json → Option (Option α)
  | .null => some none
  | value => (decode value).map some

end Json

end StepRunner
