import StepRunner.Text.Pieces
import StepRunner.Url.Percent
import StepRunner.Url.Punycode

namespace StepRunner

/-- Why a text is no URL. -/
inductive UrlError where
  | emptyHost
  | invalidDomainName
  | invalidPort
  | invalidIpv4
  | invalidIpv6
  | invalidHostCharacter
  | relative
deriving DecidableEq, Repr

/-- The text of the error. -/
def UrlError.message : UrlError → String
  | .emptyHost => "empty host"
  | .invalidDomainName => "invalid international domain name"
  | .invalidPort => "invalid port number"
  | .invalidIpv4 => "invalid IPv4 address"
  | .invalidIpv6 => "invalid IPv6 address"
  | .invalidHostCharacter => "invalid domain character"
  | .relative => "relative URL without a base"

namespace Url

/-- The machine that a URL names. -/
inductive Host where
  | domain (name : List Char)
  | ipv4 (address : Nat)
  | ipv6 (pieces : List Nat)
deriving DecidableEq, Repr

/-- The value of digits in a base, if all of them are digits of it. -/
def digitsValue? (base : Nat) (digits : List Char) : Option Nat :=
  digits.foldl (fun sum c => do
    let digit ← hexValue? c
    if digit < base then return (← sum) * base + digit else none) (some 0)

/-- A number of an IPv4 address: decimal, octal after a zero, hexadecimal after `0x`. -/
def ipv4Number? (text : List Char) : Option Nat :=
  match text with
  | [] => none
  | '0' :: 'x' :: digits | '0' :: 'X' :: digits => digitsValue? 16 digits
  | '0' :: c :: digits => digitsValue? 8 (c :: digits)
  | digits => digitsValue? 10 digits

/-- The parts of a name between dots, without an empty last one. -/
def dotted (name : List Char) : List (List Char) :=
  let parts := Text.pieces '.' name
  if parts.getLast? = some [] ∧ 1 < parts.length then parts.dropLast else parts

/-- Whether a name has to be an IPv4 address. -/
def endsInNumber (name : List Char) : Bool :=
  match (dotted name).getLast? with
  | some last => (last ≠ [] && last.all Text.isDigit) || (ipv4Number? last).isSome
  | none => false

/-- The address that a name stands for. Its last number fills the octets that are left. -/
def ipv4? (name : List Char) : Option Nat := do
  let parts := dotted name
  if 4 < parts.length then none
  let numbers ← parts.mapM ipv4Number?
  let last ← numbers.getLast?
  let others := numbers.dropLast
  if Nat.pow 256 (4 - others.length) ≤ last ∨ others.any (255 < ·) then none
  return last + (others.zipIdx.map fun (n, i) => n * Nat.pow 256 (3 - i)).foldl (· + ·) 0

/-- A number of the IPv4 address at the end of an IPv6 address. -/
private def plainOctet? (text : List Char) : Option Nat := do
  if text = [] ∨ (text.head? = some '0' ∧ 1 < text.length) then none
  let value ← Text.decimalValue? text
  if value < 256 then some value else none

/-- The pieces of a part of an IPv6 address without `::`; only at its end an IPv4 address may
    stand, for two of them. -/
def ipv6Pieces? (atEnd : Bool) (part : List Char) : Option (List Nat) :=
  if part = [] then some []
  else
    let words := Text.pieces ':' part
    let hex? := fun (word : List Char) =>
      if word = [] ∨ 4 < word.length then none else digitsValue? 16 word
    match words.getLast? with
    | none => none
    | some last =>
      if atEnd && last.contains '.' then do
        let front ← words.dropLast.mapM hex?
        match ← (Text.pieces '.' last).mapM plainOctet? with
        | [a, b, c, d] => return front ++ [a * 256 + b, c * 256 + d]
        | _ => none
      else words.mapM hex?

/-- Splits a text at the first `::`. -/
def splitGap : List Char → Option (List Char × List Char)
  | ':' :: ':' :: rest => some ([], rest)
  | c :: rest => (splitGap rest).map fun (before, after) => (c :: before, after)
  | [] => none

/-- The eight pieces of an IPv6 address. -/
def ipv6? (text : List Char) : Option (List Nat) :=
  match splitGap text with
  | some (before, after) => do
    let front ← ipv6Pieces? false before
    let back ← ipv6Pieces? true after
    let count := front.length + back.length
    if 7 < count then none
    return front ++ List.replicate (8 - count) 0 ++ back
  | none => do
    let pieces ← ipv6Pieces? true text
    if pieces.length = 8 then some pieces else none

/-- Where the first of the longest runs of zeros begins, and its length. -/
def longestGap (pieces : List Nat) : Nat × Nat :=
  let runs := (List.range pieces.length).map fun i => (i, ((pieces.drop i).takeWhile (· = 0)).length)
  runs.foldl (fun best run => if best.2 < run.2 then run else best) (0, 0)

/-- The text of an IPv6 address. -/
def ipv6Text (pieces : List Nat) : List Char :=
  let join := fun (part : List Nat) => Text.joinPieces ':' (part.map Text.hexadecimal)
  let (start, length) := longestGap pieces
  if length < 2 then join pieces
  else join (pieces.take start) ++ [':', ':'] ++ join (pieces.drop (start + length))

/-- Characters that no domain may hold. -/
def forbiddenInDomain (c : Char) : Bool :=
  c.toNat ≤ 0x20 || c.toNat = 0x7F || "%#/:<>?@[\\]^|".toList.contains c

/-- Characters that no other host may hold. -/
def forbiddenInHost (c : Char) : Bool := "\x00\t\n\r #/:<>?@[\\]^|".toList.contains c

/-- A character of a domain in the form that domains are compared in. -/
def foldChar (c : Char) : List Char :=
  let n := c.toNat
  if n < 128 then [c.toLower]
  else if n = 0xAD ∨ n = 0x200B ∨ n = 0x2060 ∨ n = 0xFEFF then []
  else if n = 0x3002 ∨ n = 0xFF0E ∨ n = 0xFF61 then ['.']
  else if 0xFF01 ≤ n ∧ n ≤ 0xFF5E then [(Char.ofNat (n - 0xFEE0)).toLower]
  else if (0xC0 ≤ n ∧ n ≤ 0xDE ∧ n ≠ 0xD7) ∨ (0x391 ≤ n ∧ n ≤ 0x3AB) ∨ (0x410 ≤ n ∧ n ≤ 0x42F) then
    [Char.ofNat (n + 32)]
  else if 0x400 ≤ n ∧ n ≤ 0x40F then [Char.ofNat (n + 80)]
  else if (0x100 ≤ n ∧ n ≤ 0x12F) ∨ (0x14A ≤ n ∧ n ≤ 0x177) then [Char.ofNat (n + (1 - n % 2))]
  else [c]

/-- Whether the character is a control beyond ASCII. -/
def isHighControl (c : Char) : Bool := 0x80 ≤ c.toNat && c.toNat < 0xA0

/-- The ASCII form of a label, if it is one. -/
def labelToAscii? (label : List Char) : Option (List Char) :=
  if label.any isHighControl then none
  else if label.all (·.toNat < 128) then
    match Text.dropStart? "xn--".toList label with
    | none => some label
    | some code => do
      let decoded ← Punycode.decode? code
      if decoded.any isHighControl then none
      if decoded.any (128 ≤ ·.toNat) ∧ Punycode.encode decoded = code then some label else none
  else some ("xn--".toList ++ Punycode.encode label)

/-- The ASCII form of a domain, if it is one. -/
def domainToAscii? (octets : List UInt8) : Option (List Char) := do
  let name ← Text.decodeUtf8? octets
  let folded := name.flatMap foldChar
  let labels ← (Text.pieces '.' folded).mapM labelToAscii?
  let ascii := Text.joinPieces '.' labels
  if ascii.any forbiddenInDomain then none
  return ascii

/-- The inside of square brackets around a text that begins with one. -/
def bracketed? (text : List Char) : Option (Option (List Char)) :=
  match text with
  | '[' :: rest => some (if rest.getLast? = some ']' then some rest.dropLast else none)
  | _ => none

/-- The host of a special URL. -/
def hostOf (text : List Char) : Except UrlError Host :=
  match bracketed? text with
  | some inside =>
    match inside.bind ipv6? with
    | some pieces => .ok (.ipv6 pieces)
    | none => .error .invalidIpv6
  | none =>
    match domainToAscii? (percentDecode text) with
    | none => .error .invalidDomainName
    | some [] => .error .emptyHost
    | some name =>
      if endsInNumber name then
        match ipv4? name with
        | some address => .ok (.ipv4 address)
        | none => .error .invalidIpv4
      else .ok (.domain name)

/-- The host of any other URL, which may be empty. -/
def opaqueHostOf (text : List Char) : Except UrlError Host :=
  match bracketed? text with
  | some inside =>
    match inside.bind ipv6? with
    | some pieces => .ok (.ipv6 pieces)
    | none => .error .invalidIpv6
  | none =>
    if text.any forbiddenInHost then .error .invalidHostCharacter
    else .ok (.domain (percentEncode controlSet text))

/-- The text of a host. -/
def Host.text : Host → List Char
  | .domain name => name
  | .ipv4 address =>
    Text.joinPieces '.' ([3, 2, 1, 0].map fun i => Text.decimal (address / Nat.pow 256 i % 256))
  | .ipv6 pieces => '[' :: ipv6Text pieces ++ [']']

end Url

end StepRunner
