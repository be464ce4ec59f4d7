import StepRunner.Text.Decimal
import StepRunner.Text.Quoted
import StepRunner.Shell.Octets

namespace StepRunner.Shell

/-- The value of an octal digit. -/
def octalValue? (c : Char) : Option Nat :=
  if '0' ≤ c ∧ c ≤ '7' then some (c.toNat - 48) else none

/-- Up to `count` octal digits at the start of a text as an octet, and what follows them. -/
def octal (count : Nat) (text : List Char) : Char × List Char :=
  let digits := (text.take count).takeWhile fun c => (octalValue? c).isSome
  let value := digits.foldl (fun n c => n * 8 + (octalValue? c).getD 0) 0
  (Char.ofNat (value % 256), text.drop digits.length)

/-- The octet that a letter after a backslash stands for. -/
def escaped? : Char → Option Char
  | 'a' => some '\x07'
  | 'b' => some '\x08'
  | 'f' => some '\x0c'
  | 'n' => some '\n'
  | 'r' => some '\r'
  | 't' => some '\t'
  | 'v' => some '\x0b'
  | '\\' => some '\\'
  | _ => none

/-- A text with its escapes replaced, and whether one of them ends all output. An octal number
    follows a zero. -/
def unescape : (fuel : Nat) → List Char → List Char × Bool
  | 0, _ => ([], false)
  | _ + 1, [] => ([], false)
  | _ + 1, '\\' :: 'c' :: _ => ([], true)
  | fuel + 1, '\\' :: '0' :: rest =>
    let (c, rest) := octal 3 rest
    let (text, ends) := unescape fuel rest
    (c :: text, ends)
  | fuel + 1, '\\' :: c :: rest =>
    let (text, ends) := unescape fuel rest
    match escaped? c with
    | some octet => (octet :: text, ends)
    | none => ('\\' :: c :: text, ends)
  | fuel + 1, c :: rest =>
    let (text, ends) := unescape fuel rest
    (c :: text, ends)

/-- What the command `echo` of the shell writes. -/
def echoed (arguments : List (List Char)) : List Char :=
  let (lineEnd, words) := match arguments with
    | ['-', 'n'] :: words => ([], words)
    | words => (['\n'], words)
  let text := [' '].intercalate words
  let (text, ends) := unescape (text.length + 1) text
  if ends then text else text ++ lineEnd

/-- A number as arguments give it: decimal, octal after a zero, hexadecimal after `0x`, or the
    number of the character after a quote. The second part tells whether it is one as a whole. -/
def numberOf (text : List Char) : Int × Bool :=
  let (negative, digits) := match text with
    | '-' :: digits => (true, digits)
    | '+' :: digits => (false, digits)
    | digits => (false, digits)
  let (value, whole) : Nat × Bool := match digits with
    | '\'' :: c :: _ | '"' :: c :: _ => (c.toNat, true)
    | '0' :: 'x' :: hex =>
      let good := hex.takeWhile fun c => c.isDigit || ('a' ≤ c.toLower && c.toLower ≤ 'f')
      (good.foldl (fun n c => n * 16 +
        (if c.isDigit then c.toNat - 48 else c.toLower.toNat - 87)) 0, good = hex ∧ hex ≠ [])
    | '0' :: octal =>
      let good := octal.takeWhile fun c => (octalValue? c).isSome
      (good.foldl (fun n c => n * 8 + (octalValue? c).getD 0) 0, good = octal)
    | _ =>
      let good := digits.takeWhile Text.isDigit
      ((Text.decimalValue? good).getD 0, good = digits ∧ digits ≠ [])
  (if negative then -value else value, whole)

/-- How a value is laid out: on which side it stands, in how many places, and what fills them. -/
structure Layout where
  left : Bool := false
  zeros : Bool := false
  plus : Bool := false
  width : Nat := 0
  precision : Option Nat := none

/-- A text in the places that it is given. -/
def Layout.place (layout : Layout) (text : List Char) : List Char :=
  let gap := layout.width - text.length
  if layout.left then text ++ List.replicate gap ' ' else List.replicate gap ' ' ++ text

/-- A number in the places that it is given. -/
def Layout.placeNumber (layout : Layout) (sign digits : List Char) : List Char :=
  let digits := List.replicate (layout.precision.getD 1 - digits.length) '0' ++ digits
  if layout.zeros ∧ layout.left = false ∧ layout.precision = none then
    sign ++ List.replicate (layout.width - sign.length - digits.length) '0' ++ digits
  else layout.place (sign ++ digits)

private def digitsIn (base n : Nat) : List Char := Nat.toDigits base n

/-- One formatted value; the second part is its text if it is no number as a whole, the third
    tells whether it ends all output. -/
def formatted (layout : Layout) (conversion : Char) (value : List Char) :
    List Char × Option (List Char) × Bool :=
  let (number, whole) := numberOf value
  let bad := if whole ∨ value = [] then none else some value
  let wrapped := (number % (Nat.pow 2 64 : Nat)).toNat
  let sign := if number < 0 then ['-'] else if layout.plus then ['+'] else []
  match conversion with
  | 's' => (layout.place (match layout.precision with
      | some n => value.take n
      | none => value), none, false)
  | 'b' =>
    let (text, ends) := unescape (value.length + 1) value
    (layout.place text, none, ends)
  | 'c' => (layout.place (value.take 1), none, false)
  | 'd' | 'i' => (layout.placeNumber sign (Text.decimal number.natAbs), bad, false)
  | 'u' => (layout.placeNumber [] (Text.decimal wrapped), bad, false)
  | 'o' => (layout.placeNumber [] (digitsIn 8 wrapped), bad, false)
  | 'x' => (layout.placeNumber [] (digitsIn 16 wrapped), bad, false)
  | 'X' => (layout.placeNumber [] ((digitsIn 16 wrapped).map Char.toUpper), bad, false)
  | _ => ([], none, false)

/-- What a pass over a format gave. -/
structure Printed where
  text : List Char := []
  remaining : List (List Char)
  bad : List (List Char) := []
  ends : Bool := false

/-- The layout before a conversion letter, and what follows it. -/
def layoutOf (text : List Char) : Layout × List Char :=
  let flags := text.takeWhile "-0+ #".toList.contains
  let rest := text.drop flags.length
  let width := rest.takeWhile Text.isDigit
  let rest := rest.drop width.length
  let (precision, rest) := match rest with
    | '.' :: rest =>
      let digits := rest.takeWhile Text.isDigit
      (Text.decimalValue? digits, rest.drop digits.length)
    | rest => (none, rest)
  (⟨flags.contains '-', flags.contains '0', flags.contains '+',
    (Text.decimalValue? width).getD 0, precision⟩, rest)

/-- One pass over a format. -/
def printOnce : (fuel : Nat) → List Char → Printed → Printed
  | 0, _, done => done
  | _ + 1, [], done => done
  | _ + 1, '\\' :: 'c' :: _, done => { done with ends := true }
  | fuel + 1, '\\' :: c :: rest, done =>
    if (octalValue? c).isSome then
      let (octet, rest) := octal 3 (c :: rest)
      printOnce fuel rest { done with text := done.text ++ [octet] }
    else
      match escaped? c with
      | some octet => printOnce fuel rest { done with text := done.text ++ [octet] }
      | none => printOnce fuel rest { done with text := done.text ++ ['\\', c] }
  | fuel + 1, '%' :: '%' :: rest, done =>
    printOnce fuel rest { done with text := done.text ++ ['%'] }
  | fuel + 1, '%' :: rest, done =>
    let (layout, rest) := layoutOf rest
    match rest with
    | [] => done
    | conversion :: rest =>
      let (text, bad, ends) := formatted layout conversion (done.remaining.headD [])
      let done := { done with
        text := done.text ++ text, remaining := done.remaining.tail, bad := done.bad ++ bad.toList }
      if ends then { done with ends := true } else printOnce fuel rest done
  | fuel + 1, c :: rest, done => printOnce fuel rest { done with text := done.text ++ [c] }

/-- What `printf` writes: the format is used again as long as it takes arguments and some are
    left. The second part are the arguments that should be numbers and are none. -/
def printed (format : List Char) (arguments : List (List Char)) : List Char × List (List Char) :=
  passes (arguments.length + 1) arguments
where
  /-- At most `fuel` passes. -/
  passes : (fuel : Nat) → List (List Char) → List Char × List (List Char)
    | 0, _ => ([], [])
    | fuel + 1, arguments =>
      let pass := printOnce (format.length + 1) format { remaining := arguments }
      if pass.ends ∨ pass.remaining = [] ∨ pass.remaining.length = arguments.length then
        (pass.text, pass.bad)
      else
        let (text, bad) := passes fuel pass.remaining
        (pass.text ++ text, pass.bad ++ bad)

end StepRunner.Shell
