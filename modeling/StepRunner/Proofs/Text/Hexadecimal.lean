import StepRunner.Text.Hexadecimal

namespace StepRunner.Text

theorem hexDigit_mod (letters : HexLetters) (n : Nat) :
    hexDigit letters (n % 16) = hexDigit letters n := by
  simp only [hexDigit, Nat.mod_mod]

theorem hexValue?_hexDigit (letters : HexLetters) (n : Nat) :
    hexValue? (hexDigit letters n) = some (n % 16) := by
  have hdigits : ∀ k < 16, hexValue? (hexDigit letters k) = some k := by
    cases letters <;> decide
  rw [← hexDigit_mod, hdigits _ (Nat.mod_lt _ (by decide))]

/-- A digit is none of the characters with a meaning of their own. -/
theorem hexDigit_isAlphanum (letters : HexLetters) (n : Nat) :
    (hexDigit letters n).isAlphanum = true := by
  have hdigits : ∀ k < 16, (hexDigit letters k).isAlphanum = true := by
    cases letters <;> decide
  rw [← hexDigit_mod]
  exact hdigits _ (Nat.mod_lt _ (by decide))

end StepRunner.Text
