namespace StepRunner.Text

/-- Whether letters that are digits are small or capital. -/
inductive HexLetters where
  | small
  | capital
deriving DecidableEq, Repr

/-- The hexadecimal digit with value `n % 16`. -/
def hexDigit (letters : HexLetters) (n : Nat) : Char :=
  if n % 16 < 10 then Char.ofNat (48 + n % 16)
  else match letters with
    | .small => Char.ofNat (87 + n % 16)
    | .capital => Char.ofNat (55 + n % 16)

/-- The value of a hexadecimal digit. -/
def hexValue? (c : Char) : Option Nat :=
  if '0' ≤ c ∧ c ≤ '9' then some (c.toNat - 48)
  else if 'a' ≤ c ∧ c ≤ 'f' then some (c.toNat - 87)
  else if 'A' ≤ c ∧ c ≤ 'F' then some (c.toNat - 55)
  else none

/-- The small hexadecimal digits of `n`, without leading zeros. -/
def hexadecimal (n : Nat) : List Char := Nat.toDigits 16 n

end StepRunner.Text
