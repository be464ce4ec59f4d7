import StepRunner.Text.Blank
import StepRunner.Time.Timestamp

namespace StepRunner.Timestamp

/-- A reader takes what it understands off the front of a text. -/
abbrev Reader := StateT (List Char) Option

namespace Reader

/-- Takes the character `c`. -/
def char (c : Char) : Reader Unit := fun text =>
  match text with
  | first :: rest => if first = c then some ((), rest) else none
  | [] => none

/-- Takes one of the characters `cs`. -/
def oneOf (cs : List Char) : Reader Unit := fun text =>
  match text with
  | first :: rest => if first ∈ cs then some ((), rest) else none
  | [] => none

/-- Takes the decimal digits at the front, at most `most` and at least `least`. -/
def number (least most : Nat) : Reader Nat := fun text =>
  let digits := (text.take most).takeWhile Text.isDigit
  if digits.length < least then none
  else (Text.decimalValue? digits).map (·, text.drop digits.length)

/-- Takes all decimal digits at the front, at least one. -/
def wholeNumber : Reader Nat := fun text => number 1 text.length text

/-- Takes the leading characters that satisfy `p`. -/
def skip (p : Char → Bool) : Reader Unit := fun text => some ((), text.dropWhile p)

/-- A fraction of a second in nanoseconds, if a point comes next; digits after the ninth do not
    count. -/
def fraction : Reader Nat := fun text =>
  match text with
  | '.' :: rest => do
    let (value, after) ← number 1 9 rest
    let scale := Nat.pow 10 (9 - (rest.length - after.length))
    let (_, after) ← skip Text.isDigit after
    return (value * scale, after)
  | _ => some (0, text)

/-- The sign of an offset; U+2212 is a minus sign too. -/
def sign : Reader Int := fun text =>
  match text with
  | '+' :: rest => some (1, rest)
  | '-' :: rest => some (-1, rest)
  | '\u2212' :: rest => some (-1, rest)
  | _ => none

/-- The seconds by which local time is ahead: `Z`, or a sign, hours, what `separator` takes, and
    minutes below 60. -/
def offset (separator : Reader Unit) : Reader Int := fun text =>
  match text with
  | 'Z' :: rest => some (0, rest)
  | 'z' :: rest => some (0, rest)
  | _ => (do
      let direction ← sign
      let hours ← number 2 2
      separator
      let minutes ← number 2 2
      if 60 ≤ minutes then failure
      return direction * (hours * 3600 + minutes * 60)) text

end Reader

/-- The timestamp of a local date and time. Second 60 is the leap second after second 59. -/
def ofFields? (date : Date) (hour minute second nano : Nat) (offset : Int) : Option Timestamp := do
  if !date.exists? || 23 < hour || 59 < minute || 60 < second then none
  let (second, nano) := if second = 60 then (59, nano + 1000000000) else (second, nano)
  let local_ := date.dayNumber * 86400 + (hour * 3600 + minute * 60 + second : Nat)
  if date.year < -262143 || 262142 < date.year then none
  ofParts? (local_ - offset) nano

/-- Reads the strict form: every field has its full width, and the offset has a colon and lies
    within a day. -/
def strictReader : Reader Timestamp := do
  let year ← Reader.number 4 4
  Reader.char '-'
  let month ← Reader.number 2 2
  Reader.char '-'
  let day ← Reader.number 2 2
  Reader.oneOf ['t', 'T', ' ']
  let hour ← Reader.number 2 2
  Reader.char ':'
  let minute ← Reader.number 2 2
  Reader.char ':'
  let second ← Reader.number 2 2
  let nano ← Reader.fraction
  let offset ← Reader.offset (Reader.char ':')
  if 86400 ≤ offset.natAbs then failure
  ofFields? ⟨year, month, day⟩ hour minute second nano offset

/-- The timestamp that the whole text gives in the strict form. -/
def readStrict? (text : List Char) : Option Timestamp :=
  match strictReader text with
  | some (t, []) => some t
  | _ => none

namespace Reader

/-- A field of one or two digits, after blanks. -/
def shortField : Reader Nat := do
  skip Text.isBlank
  number 1 2

/-- A separator after blanks. -/
def separator (c : Char) : Reader Unit := do
  skip Text.isBlank
  char c

/-- A year, after blanks: up to four digits, or a sign and any number of them. -/
def year : Reader Int := do
  skip Text.isBlank
  let text ← get
  match text with
  | '-' :: rest => set rest; return -(← wholeNumber)
  | '+' :: rest => set rest; return (← wholeNumber)
  | _ => return (← number 1 4)

/-- An offset after blanks: `UTC` in any case, or hours and minutes with any colons and blanks
    between them. -/
def lenientOffset : Reader Int := fun text =>
  let text := text.dropWhile Text.isBlank
  if (text.take 3).map Char.toLower = ['u', 't', 'c'] then some (0, text.drop 3)
  else offset (skip fun c => c = ':' || Text.isBlank c) text

end Reader

/-- Reads the lenient form: fields may be short, the year may have a sign, and blanks may stand
    around the fields. -/
def lenientReader : Reader Timestamp := do
  let year ← Reader.year
  Reader.separator '-'
  let month ← Reader.shortField
  Reader.separator '-'
  let day ← Reader.shortField
  Reader.oneOf ['t', 'T', ' ']
  let hour ← Reader.shortField
  Reader.separator ':'
  let minute ← Reader.shortField
  Reader.separator ':'
  let second ← Reader.shortField
  let nano ← Reader.fraction
  let offset ← Reader.lenientOffset
  if 86400 ≤ offset.natAbs then failure
  ofFields? ⟨year, month, day⟩ hour minute second nano offset

/-- The timestamp that the whole text gives in the lenient form, blanks after it apart. -/
def readLenient? (text : List Char) : Option Timestamp :=
  match lenientReader text with
  | some (t, rest) => if rest.all Text.isBlank then some t else none
  | none => none

end StepRunner.Timestamp
