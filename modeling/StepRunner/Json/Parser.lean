import StepRunner.Json.Basic
import StepRunner.Text.Hexadecimal

namespace StepRunner.Json

/-- The four characters that may stand between tokens. -/
def isSpace (c : Char) : Bool := c == ' ' || c == '\t' || c == '\n' || c == '\r'

/-- The text after leading space. -/
def skipSpace (text : List Char) : List Char := text.dropWhile isSpace

/-- The number that four hexadecimal digits give. -/
def hexFour? : List Char → Option (Nat × List Char)
  | a :: b :: c :: d :: rest => do
    let a ← Text.hexValue? a
    let b ← Text.hexValue? b
    let c ← Text.hexValue? c
    let d ← Text.hexValue? d
    return (((a * 16 + b) * 16 + c) * 16 + d, rest)
  | _ => none

/-- The character that a one-letter escape stands for. -/
def simpleEscape? (c : Char) : Option Char :=
  match c with
  | '"' => some '"'
  | '\\' => some '\\'
  | '/' => some '/'
  | 'b' => some (Char.ofNat 8)
  | 'f' => some (Char.ofNat 12)
  | 'n' => some '\n'
  | 'r' => some '\r'
  | 't' => some '\t'
  | _ => none

/-- The half of a surrogate pair that may follow: an escape of a low surrogate. -/
def lowSurrogate? : List Char → Option (Nat × List Char)
  | '\\' :: 'u' :: rest => do
    let (low, rest) ← hexFour? rest
    if 0xDC00 ≤ low ∧ low ≤ 0xDFFF then some (low, rest) else none
  | _ => none

/-- What a `\u` escape with the number `code` stands for, `none` for an unpaired surrogate, and
    the text after it. -/
def wideEscape (code : Nat) (rest : List Char) : Option Char × List Char :=
  if 0xD800 ≤ code ∧ code ≤ 0xDBFF then
    match lowSurrogate? rest with
    | some (low, after) =>
      (some (Char.ofNat (0x10000 + (code - 0xD800) * 0x400 + (low - 0xDC00))), after)
    | none => (none, rest)
  else if 0xDC00 ≤ code ∧ code ≤ 0xDFFF then (none, rest)
  else (some (Char.ofNat code), rest)

/-- Reads a string after its opening quote, to its closing one. Each character that stands for
    none is reported as `none`. Stops after `fuel` characters. -/
def stringBody : (fuel : Nat) → List Char → Option (List (Option Char) × List Char)
  | 0, _ => none
  | fuel + 1, text =>
    match text with
    | '"' :: rest => some ([], rest)
    | '\\' :: 'u' :: rest => do
      let (code, rest) ← hexFour? rest
      let (c, rest) := wideEscape code rest
      let (cs, rest) ← stringBody fuel rest
      return (c :: cs, rest)
    | '\\' :: e :: rest => do
      let c ← simpleEscape? e
      let (cs, rest) ← stringBody fuel rest
      return (some c :: cs, rest)
    | c :: rest =>
      if c = '\\' ∨ c.toNat < 32 then none
      else do
        let (cs, rest) ← stringBody fuel rest
        return (some c :: cs, rest)
    | [] => none

/-- A string after its opening quote; `none` inside for one that stands for no text. -/
def readString (text : List Char) : Option (Option String × List Char) := do
  let (cs, rest) ← stringBody (text.length + 1) text
  return ((cs.mapM id).map String.ofList, rest)

/-- The digits at the front of a text. -/
def leadingDigits (text : List Char) : List Char := text.takeWhile Text.isDigit

/-- The length of a fraction: a point and at least one digit, or nothing. -/
def fractionLength? : List Char → Option Nat
  | '.' :: rest =>
    let digits := leadingDigits rest
    if digits.isEmpty then none else some (digits.length + 1)
  | _ => some 0

/-- The length of an exponent: `e`, an optional sign and at least one digit, or nothing. -/
def exponentLength? : List Char → Option Nat
  | c :: rest =>
    if c = 'e' ∨ c = 'E' then
      let (signLength, rest) :=
        match rest with
        | '+' :: rest => (1, rest)
        | '-' :: rest => (1, rest)
        | rest => (0, rest)
      let digits := leadingDigits rest
      if digits.isEmpty then none else some (1 + signLength + digits.length)
    else some 0
  | [] => some 0

/-- The length of the whole digits: `0` alone, or digits that do not start with it. -/
def integerLength? (text : List Char) : Option Nat :=
  let digits := leadingDigits text
  if digits.isEmpty then none
  else if digits.head? = some '0' ∧ 1 < digits.length then none
  else some digits.length

/-- Reads a number. -/
def readNumber (text : List Char) : Option (Json × List Char) := do
  let signLength := if text.head? = some '-' then 1 else 0
  let whole ← integerLength? (text.drop signLength)
  let fraction ← fractionLength? (text.drop (signLength + whole))
  let exponent ← exponentLength? (text.drop (signLength + whole + fraction))
  let length := signLength + whole + fraction + exponent
  let token := text.take length
  let rest := text.drop length
  if signLength + fraction + exponent = 0 then
    return (.natural (← Text.decimalValue? token), rest)
  else return (.numeral (String.ofList token), rest)

mutual

/-- Reads a value. Each call nests at most `fuel` deep and reads at most as many elements. -/
def readValue : (fuel : Nat) → List Char → Option (Json × List Char)
  | 0, _ => none
  | fuel + 1, text =>
    match skipSpace text with
    | 'n' :: 'u' :: 'l' :: 'l' :: rest => some (.null, rest)
    | 't' :: 'r' :: 'u' :: 'e' :: rest => some (.bool true, rest)
    | 'f' :: 'a' :: 'l' :: 's' :: 'e' :: rest => some (.bool false, rest)
    | '"' :: rest => do
      let (text?, rest) ← readString rest
      return (text?.elim .unpaired .string, rest)
    | '[' :: rest =>
      match skipSpace rest with
      | ']' :: rest => some (.array [], rest)
      | _ => do
        let (first, rest) ← readValue fuel rest
        let (others, rest) ← readElements fuel rest
        return (.array (first :: others), rest)
    | '\x7b' :: rest =>
      match skipSpace rest with
      | '\x7d' :: rest => some (.object [], rest)
      | _ => do
        let (first, rest) ← readMember fuel rest
        let (others, rest) ← readMembers fuel rest
        return (.object (first :: others), rest)
    | text => readNumber text

/-- Reads the elements after the first and the closing bracket. -/
def readElements : (fuel : Nat) → List Char → Option (List Json × List Char)
  | 0, _ => none
  | fuel + 1, text =>
    match skipSpace text with
    | ']' :: rest => some ([], rest)
    | ',' :: rest => do
      let (value, rest) ← readValue fuel rest
      let (others, rest) ← readElements fuel rest
      return (value :: others, rest)
    | _ => none

/-- Reads a member of an object: a name, a colon and a value. -/
def readMember : (fuel : Nat) → List Char → Option ((Option String × Json) × List Char)
  | 0, _ => none
  | fuel + 1, text =>
    match skipSpace text with
    | '"' :: rest => do
      let (name, rest) ← readString rest
      match skipSpace rest with
      | ':' :: rest => do
        let (value, rest) ← readValue fuel rest
        return ((name, value), rest)
      | _ => none
    | _ => none

/-- Reads the members after the first and the closing brace. -/
def readMembers : (fuel : Nat) → List Char → Option (List (Option String × Json) × List Char)
  | 0, _ => none
  | fuel + 1, text =>
    match skipSpace text with
    | '\x7d' :: rest => some ([], rest)
    | ',' :: rest => do
      let (member, rest) ← readMember fuel rest
      let (others, rest) ← readMembers fuel rest
      return (member :: others, rest)
    | _ => none

end

/-- The value that a whole text gives. Every step of the reader takes a character, so twice the
    length of the text is enough for it. -/
def parse? (text : String) : Option Json :=
  let chars := text.toList
  match readValue (2 * chars.length + 2) chars with
  | some (value, rest) => if (skipSpace rest).isEmpty then some value else none
  | none => none

end StepRunner.Json
