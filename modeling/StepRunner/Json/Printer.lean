import StepRunner.Json.Basic
import StepRunner.Text.Hexadecimal

namespace StepRunner.Json

/-- A digit of an escape. -/
def hexDigit (n : Nat) : Char := Text.hexDigit .small n

/-- A character inside a string: quotes, backslashes and controls are escaped. -/
def printChar (c : Char) : List Char :=
  if c = '"' then ['\\', '"']
  else if c = '\\' then ['\\', '\\']
  else if c = '\n' then ['\\', 'n']
  else if c = '\r' then ['\\', 'r']
  else if c = '\t' then ['\\', 't']
  else if c.toNat = 8 then ['\\', 'b']
  else if c.toNat = 12 then ['\\', 'f']
  else if c.toNat < 32 then ['\\', 'u', '0', '0', hexDigit (c.toNat / 16), hexDigit c.toNat]
  else [c]

/-- A text as a string. -/
def printString (text : String) : List Char :=
  '"' :: text.toList.flatMap printChar ++ ['"']

mutual

/-- The text of a value, without blanks. An unpaired surrogate prints as one. -/
def print : Json → List Char
  | .null => ['n', 'u', 'l', 'l']
  | .bool true => ['t', 'r', 'u', 'e']
  | .bool false => ['f', 'a', 'l', 's', 'e']
  | .natural n => Text.decimal n
  | .numeral text => text.toList
  | .string text => printString text
  | .unpaired => ['"', '\\', 'u', 'd', '8', '0', '0', '"']
  | .array [] => ['[', ']']
  | .array (first :: rest) => '[' :: print first ++ printElements rest
  | .object [] => ['\x7b', '\x7d']
  | .object ((name, value) :: rest) =>
    '\x7b' :: printName name ++ ':' :: print value ++ printMembers rest

/-- The name of a member. -/
def printName : Option String → List Char
  | some text => printString text
  | none => ['"', '\\', 'u', 'd', '8', '0', '0', '"']

/-- The elements after the first and the closing bracket. -/
def printElements : List Json → List Char
  | [] => [']']
  | value :: rest => ',' :: print value ++ printElements rest

/-- The members after the first and the closing brace. -/
def printMembers : List (Option String × Json) → List Char
  | [] => ['\x7d']
  | (name, value) :: rest => ',' :: printName name ++ ':' :: print value ++ printMembers rest

end

/-- The text of a value. -/
def render (value : Json) : String := String.ofList (print value)

end StepRunner.Json
