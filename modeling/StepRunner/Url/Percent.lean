import StepRunner.Text.Hexadecimal
import StepRunner.Text.Utf8

namespace StepRunner.Url

export Text (hexValue?)

/-- A digit of an octet. -/
def hexDigit (n : Nat) : Char := Text.hexDigit .capital n

/-- An octet as a percent sign and two digits. -/
def percentOctet (b : UInt8) : List Char := ['%', hexDigit (b.toNat / 16), hexDigit b.toNat]

/-- The text with each character that is in `set` written by its octets. -/
def percentEncode (set : Char → Bool) (text : List Char) : List Char :=
  text.flatMap fun c => if set c then (Text.encodeUtf8 [c]).flatMap percentOctet else [c]

/-- The octets that a text stands for; a percent sign without two digits stands for itself. -/
def percentDecode : List Char → List UInt8
  | [] => []
  | '%' :: a :: b :: rest =>
    match hexValue? a, hexValue? b with
    | some high, some low => (high * 16 + low).toUInt8 :: percentDecode rest
    | _, _ => 0x25 :: percentDecode (a :: b :: rest)
  | c :: rest => Text.encodeUtf8 [c] ++ percentDecode rest

/-- Controls and characters that are not ASCII. -/
def controlSet (c : Char) : Bool := c.toNat < 0x20 || 0x7F ≤ c.toNat

/-- What is encoded in a fragment. -/
def fragmentSet (c : Char) : Bool := controlSet c || " \"<>`".toList.contains c

/-- What is encoded in a query. -/
def querySet (special : Bool) (c : Char) : Bool :=
  controlSet c || " \"#<>".toList.contains c || (special && c = '\'')

/-- What is encoded in a path. -/
def pathSet (c : Char) : Bool := fragmentSet c || "#?\x7b\x7d".toList.contains c

/-- What is encoded in the name of one segment of a path. -/
def segmentSet (special : Bool) (c : Char) : Bool :=
  pathSet c || c = '/' || c = '%' || (special && c = '\\')

/-- What is encoded before the at sign. -/
def userSet (c : Char) : Bool := pathSet c || "/:;=@[\\]^|".toList.contains c

/-- An octet of the name or value of a form's field. -/
def formOctet (b : UInt8) : List Char :=
  let c := Char.ofNat b.toNat
  if b < 0x80 && (c.isAlphanum || "*-._".toList.contains c) then [c]
  else if c = ' ' then ['+']
  else percentOctet b

/-- The name or value of a form's field. -/
def formEncode (text : List Char) : List Char := (Text.encodeUtf8 text).flatMap formOctet

/-- Adds fields to a query. -/
def addFields (query : List Char) : List (List Char × List Char) → List Char
  | [] => query
  | (name, value) :: rest =>
    let field := formEncode name ++ '=' :: formEncode value
    addFields (if query = [] then field else query ++ '&' :: field) rest

end StepRunner.Url
