namespace StepRunner.Text

/-- The decimal digit with value `n % 10`. -/
def digitChar (n : Nat) : Char := Char.ofNat (48 + n % 10)

/-- The value of a decimal digit. -/
def digitValue? (c : Char) : Option Nat :=
  if '0' ≤ c ∧ c ≤ '9' then some (c.toNat - 48) else none

/-- Whether `c` is one of `0` to `9`. -/
def isDigit (c : Char) : Bool := (digitValue? c).isSome

/-- The decimal digits of `n`, without leading zeros. -/
def decimal (n : Nat) : List Char :=
  if n < 10 then [digitChar n] else decimal (n / 10) ++ [digitChar n]

/-- The number written by decimal digits; the empty text counts as zero. -/
def decimalValue? (digits : List Char) : Option Nat :=
  digits.foldl (fun sum c => do return (← sum) * 10 + (← digitValue? c)) (some 0)

/-- The decimal digits of `n` after as many zeros as fill `width`. -/
def padded (width n : Nat) : List Char :=
  let digits := decimal n
  List.replicate (width - digits.length) '0' ++ digits

/-- Reads an optional `+` and at least one decimal digit as a number that is at most `limit`. -/
def unsigned? (limit : Nat) (text : List Char) : Option Nat := do
  let digits := (if text.head? = some '+' then text.tail else text)
  if digits.isEmpty then none
  let value ← decimalValue? digits
  if value ≤ limit then some value else none

/-- The largest number of 32 bits. -/
def maxWord32 : Nat := Nat.pow 2 32 - 1

/-- The largest number of 64 bits. -/
def maxWord64 : Nat := Nat.pow 2 64 - 1

end StepRunner.Text
