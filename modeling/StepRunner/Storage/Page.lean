import StepRunner.Json.Fields
import StepRunner.Json.Parser
import StepRunner.Storage.Object
import StepRunner.Time.Timestamp.Reader

namespace StepRunner.Storage

/-- An object as a server tells of it. Its size is written as a text. -/
structure Item where
  name : String
  updated : Timestamp
  size : Option String
deriving DecidableEq, Repr

/-- One page of a listing, and the token that asks for the next one. -/
structure Page where
  items : List Item
  nextToken : Option String
deriving DecidableEq, Repr

namespace Page

/-- The fields of a record as `Json.fields?` gives them, but an array may lack the last ones after
    `least`. -/
private def fields? (names : List String) (least : Nat) (value : Json) :
    Option (List (Option Json)) :=
  match value with
  | .array elements =>
    if least ≤ elements.length ∧ elements.length ≤ names.length then
      some (elements.map some ++ List.replicate (names.length - elements.length) none)
    else none
  | value => value.fields? names

/-- A time as servers write it. -/
def timestamp? (value : Json) : Option Timestamp :=
  value.string?.bind fun text => Timestamp.readLenient? text.toList

/-- An object of a page. -/
def item? (value : Json) : Option Item := do
  match ← fields? ["name", "updated", "size"] 2 value with
  | [name, updated, size] =>
    return ⟨← Json.required? Json.string? name, ← Json.required? timestamp? updated,
      ← Json.optional? Json.string? size⟩
  | _ => none

/-- A page. Without items it is empty. -/
def ofJson? (value : Json) : Option Page := do
  match ← fields? ["items", "nextPageToken"] 2 value with
  | [items, token] =>
    return ⟨← Json.defaulted? [] (Json.list? item?) items, ← Json.optional? Json.string? token⟩
  | _ => none

/-- The page that a text is. -/
def parse? (text : String) : Option Page := (Json.parse? text).bind ofJson?

end Page

end StepRunner.Storage
