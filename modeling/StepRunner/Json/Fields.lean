import StepRunner.Json.Basic

namespace StepRunner.Json

/-- The only value that `members` give the name, `none` inside if they give it none. Fails if they
    name it twice. -/
def uniqueMember? (members : List (Option String × Json)) (name : String) : Option (Option Json) :=
  match members.filter (·.1 = some name) with
  | [] => some none
  | [(_, value)] => some (some value)
  | _ => none

/-- The fields of a record, in the order of `names`: from an object by name, where other names do
    not count, or from an array that has exactly these elements. -/
def fields? (names : List String) : Json → Option (List (Option Json))
  | .object members =>
    if members.all (·.1.isSome) then names.mapM (uniqueMember? members) else none
  | .array elements => if elements.length = names.length then some (elements.map some) else none
  | _ => none

/-- A field that has to be there. -/
def required? {α : Type} (decode : Json → Option α) (field : Option Json) : Option α :=
  field.bind decode

/-- A field that may be missing or `null`. -/
def optional? {α : Type} (decode : Json → Option α) (field : Option Json) : Option (Option α) :=
  match field with
  | none => some none
  | some value => option? decode value

/-- A field whose absence means `default`. -/
def defaulted? {α : Type} (default : α) (decode : Json → Option α) (field : Option Json) :
    Option α :=
  match field with
  | none => some default
  | some value => decode value

/-- Splits a number's text into whole digits, fraction digits and exponent. -/
private def numeralParts (text : List Char) : List Char × List Char × List Char :=
  let text := text.dropWhile (· = '-')
  let whole := text.takeWhile Text.isDigit
  let rest := text.drop whole.length
  let fraction := match rest with
    | '.' :: rest => rest.takeWhile Text.isDigit
    | _ => []
  (whole, fraction, (text.dropWhile fun c => c ≠ 'e' ∧ c ≠ 'E').tail)

/-- Whether a number's size can be held with 64-bit floating point. -/
def numeralFits (text : String) : Bool :=
  let (whole, fraction, exponent) := numeralParts text.toList
  let digits := (whole ++ fraction).dropWhile (· = '0')
  if digits.isEmpty then true
  else
    let negative := exponent.head? = some '-'
    let size := (Text.decimalValue? (exponent.dropWhile fun c => c = '+' ∨ c = '-')).getD 0
    if negative then
      if 400 ≤ size then true else digits.length - fraction.length ≤ 308 + size
    else
      let places := digits.length + size
      if places < 309 + fraction.length then true
      else if 309 + fraction.length < places then false
      else
        let value := ((Text.decimalValue? digits).getD 0) * Nat.pow 10 size
        value < (Nat.pow 2 1024 - Nat.pow 2 970) * Nat.pow 10 fraction.length

mutual

/-- Whether a value can be kept before it is known what it means: no part of it stands for no
    text, its numbers are not too large, and it nests less than `depth` deep. -/
def keepable : (depth : Nat) → Json → Bool
  | _, .unpaired => false
  | _, .natural value => value < Nat.pow 2 1024 - Nat.pow 2 970
  | _, .numeral text => numeralFits text
  | depth, .array elements => 1 < depth && keepableElements (depth - 1) elements
  | depth, .object members => 1 < depth && keepableMembers (depth - 1) members
  | _, _ => true

/-- `keepable` for every element. -/
def keepableElements : (depth : Nat) → List Json → Bool
  | _, [] => true
  | depth, value :: rest => keepable depth value && keepableElements depth rest

/-- `keepable` for every member, names included. -/
def keepableMembers : (depth : Nat) → List (Option String × Json) → Bool
  | _, [] => true
  | depth, (name, value) :: rest =>
    name.isSome && keepable depth value && keepableMembers depth rest

end

end StepRunner.Json
