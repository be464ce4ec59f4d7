import StepRunner.Text.Pieces

namespace StepRunner.Text

/-- Whether `c` is a hexadecimal digit. -/
def isHexDigit (c : Char) : Bool :=
  c.isDigit || ('a' ≤ c && c ≤ 'f') || ('A' ≤ c && c ≤ 'F')

/-- The text of a universally unique identifier with its digits in groups. -/
def groupedUuid (digits : List Char) : List Char :=
  joinPieces '-' [digits.take 8, (digits.drop 8).take 4, (digits.drop 12).take 4,
    (digits.drop 16).take 4, digits.drop 20]

/-- The digits of an identifier in groups. -/
def groupedDigits? (text : List Char) : Option (List Char) :=
  let groups := pieces '-' text
  if groups.map List.length = [8, 4, 4, 4, 12] then some groups.flatten else none

/-- The digits of an identifier in one of its written forms: plain, in groups, in braces or as a
    name. -/
def uuidDigits? (text : List Char) : Option (List Char) :=
  if text.length = 32 then some text
  else
    match text with
    | '\x7b' :: inside =>
      if inside.getLast? = some '\x7d' then groupedDigits? inside.dropLast else none
    | _ =>
      match dropStart? "urn:uuid:".toList text with
      | some rest => groupedDigits? rest
      | none => groupedDigits? text

/-- The usual form of an identifier, if a text is one. -/
def uuid? (text : String) : Option String := do
  let digits ← uuidDigits? text.toList
  if digits.all isHexDigit then
    some (String.ofList (groupedUuid (digits.map Char.toLower)))
  else none

end StepRunner.Text
