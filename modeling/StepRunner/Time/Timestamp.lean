import StepRunner.Text.Decimal
import StepRunner.Time.Calendar
import StepRunner.Time.Instant

namespace StepRunner

/-- A moment of universal time. In the last second of a minute `nano` may run on to two seconds:
    a leap second is written as second 60. The years reach from -262143 to 262142. -/
structure Timestamp where
  second : Int
  nano : Nat
  nano_lt : nano < 2000000000
  leap : 1000000000 ≤ nano → second % 60 = 59
  earliest_le : -8334601228800 ≤ second
  le_latest : second ≤ 8210266876799
deriving DecidableEq, Repr

namespace Timestamp

/-- The timestamp at `second` seconds since 1970 and `nano` nanoseconds, if there is one. -/
def ofParts? (second : Int) (nano : Nat) : Option Timestamp :=
  if h : nano < 2000000000 ∧ (1000000000 ≤ nano → second % 60 = 59) ∧
      -8334601228800 ≤ second ∧ second ≤ 8210266876799 then
    some ⟨second, nano, h.1, h.2.1, h.2.2.1, h.2.2.2⟩
  else none

/-- The moment on a clock without leap seconds: a leap second counts into the minute after it. -/
def toInstant (t : Timestamp) : Instant := Instant.ofParts t.second t.nano

/-- The calendar day and the second of the day. -/
def date (t : Timestamp) : Date := Date.ofDayNumber (t.second / 86400)

/-- The seconds since midnight, without a leap second. -/
def secondOfDay (t : Timestamp) : Nat := (t.second % 86400).toNat

/-- A year has four digits; one outside 0 to 9999 has a sign and five or six. -/
def yearText (year : Int) : List Char :=
  if 0 ≤ year ∧ year ≤ 9999 then Text.padded 4 year.toNat
  else (if year < 0 then '-' else '+') :: Text.padded (if year < 0 then 4 else 5) year.natAbs

/-- The fraction of a second: none, or a point and the least of 3, 6 and 9 digits that are exact. -/
def fractionText (nano : Nat) : List Char :=
  if nano = 0 then []
  else if nano % 1000000 = 0 then '.' :: Text.padded 3 (nano / 1000000)
  else if nano % 1000 = 0 then '.' :: Text.padded 6 (nano / 1000)
  else '.' :: Text.padded 9 nano

/-- The text of a timestamp, such as `2013-05-01T12:00:00.500Z`. -/
def text (t : Timestamp) : List Char :=
  let d := t.date
  let s := t.secondOfDay
  let isLeap := 1000000000 ≤ t.nano
  yearText d.year ++ '-' :: Text.padded 2 d.month ++ '-' :: Text.padded 2 d.day ++
    'T' :: Text.padded 2 (s / 3600) ++ ':' :: Text.padded 2 (s / 60 % 60) ++
    ':' :: Text.padded 2 (if isLeap then s % 60 + 1 else s % 60) ++
    fractionText (t.nano % 1000000000) ++ ['Z']

instance : ToString Timestamp := ⟨fun t => String.ofList t.text⟩

end Timestamp

end StepRunner
