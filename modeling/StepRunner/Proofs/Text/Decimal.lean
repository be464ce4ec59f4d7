import Mathlib.Algebra.Ring.Nat
import Mathlib.Data.List.Basic
import Mathlib.Data.List.Induction
import Mathlib.Data.Nat.Digits.Defs
import StepRunner.Text.Blank
import StepRunner.Text.Decimal

namespace StepRunner.Text

variable {c : Char} {n limit : ℕ}

theorem digitValue?_digitChar (n : ℕ) : digitValue? (digitChar n) = some (n % 10) := by
  have hall : ∀ digit < 10, digitValue? (Char.ofNat (48 + digit)) = some digit := by decide
  exact hall (n % 10) (Nat.mod_lt n (by decide))

theorem isDigit_of_mem_decimal (h : c ∈ decimal n) : isDigit c = true := by
  have hdigit (n : ℕ) : isDigit (digitChar n) = true := by rw [isDigit, digitValue?_digitChar]; rfl
  induction n using decimal.induct with
  | case1 n hlt =>
    rw [decimal, if_pos hlt, List.mem_singleton] at h
    exact h ▸ hdigit n
  | case2 n hge ih =>
    rw [decimal, if_neg hge, List.mem_append, List.mem_singleton] at h
    rcases h with h | rfl
    · exact ih h
    · exact hdigit n

theorem isBlank_of_isDigit (h : isDigit c = true) : isBlank c = false := by
  have hrange : '0' ≤ c ∧ c ≤ '9' := by
    by_contra hout
    rw [isDigit, digitValue?, if_neg hout] at h
    cases h
  have hlow : 48 ≤ c.toNat := hrange.1
  have hhigh : c.toNat ≤ 57 := hrange.2
  simp only [isBlank, Bool.or_eq_false_iff, Bool.and_eq_false_iff, decide_eq_false_iff_not,
    beq_eq_false_iff_ne]
  omega

theorem decimal_ne_nil (n : ℕ) : decimal n ≠ [] := by
  unfold decimal
  split
  · exact List.cons_ne_nil _ _
  · simp

/-- One more digit makes a number ten times as large and adds the digit's value. -/
theorem decimalValue?_append (digits : List Char) (c : Char) : decimalValue? (digits ++ [c]) =
    (decimalValue? digits).bind fun value => (digitValue? c).map (value * 10 + ·) := by
  rw [decimalValue?, List.foldl_append, ← decimalValue?]
  rw [List.foldl_cons, List.foldl_nil]
  cases decimalValue? digits with
  | none => rfl
  | some value => cases digitValue? c <;> simp

/-- The digits of a number are read as the number. -/
theorem decimalValue?_decimal (n : ℕ) : decimalValue? (decimal n) = some n := by
  induction n using decimal.induct with
  | case1 n hlt =>
    rw [decimal, if_pos hlt, ← List.nil_append [digitChar n], decimalValue?_append,
      digitValue?_digitChar, Nat.mod_eq_of_lt hlt]
    simp [decimalValue?]
  | case2 n hge ih =>
    rw [decimal, if_neg hge, decimalValue?_append, ih, digitValue?_digitChar]
    simp only [Option.bind_some, Option.map_some, Option.some.injEq]
    omega

/-- A number up to the limit is read back from its digits. -/
theorem unsigned?_decimal (h : n ≤ limit) : unsigned? limit (decimal n) = some n := by
  have hplus : (decimal n).head? ≠ some '+' := fun hhead =>
    absurd (isDigit_of_mem_decimal (List.mem_of_head? hhead)) (by decide)
  have hempty : (decimal n).isEmpty = false := by simpa using decimal_ne_nil n
  simp [unsigned?, hplus, hempty, decimalValue?_decimal, h]

/-- The digits of a number start with zero only if it is zero. -/
theorem head?_decimal_ne (h : n ≠ 0) : (decimal n).head? ≠ some '0' := by
  induction n using decimal.induct with
  | case1 n hlt =>
    have hall : ∀ n < 10, n ≠ 0 → digitChar n ≠ '0' := by decide
    rw [decimal, if_pos hlt]
    exact fun hzero => hall n hlt h (Option.some.inj hzero)
  | case2 n hge ih =>
    rw [decimal, if_neg hge, List.head?_append_of_ne_nil _ (decimal_ne_nil _)]
    exact ih (by omega)

theorem length_decimal_le {width : ℕ} (hwidth : 0 < width) (h : n < 10 ^ width) :
    (decimal n).length ≤ width := by
  induction n using decimal.induct generalizing width with
  | case1 n hlt =>
    rw [decimal, if_pos hlt]
    exact hwidth
  | case2 n hge ih =>
    rw [decimal, if_neg hge, List.length_append, List.length_singleton]
    obtain ⟨less, rfl⟩ := Nat.exists_eq_add_one.2 hwidth
    have hless : 0 < less := by
      by_contra hzero
      obtain rfl : less = 0 := by omega
      omega
    rw [Nat.pow_succ] at h
    have hlength := ih hless (by omega)
    omega

/-- A number of few enough digits fills the width exactly. -/
theorem length_padded {width : ℕ} (hwidth : 0 < width) (h : n < 10 ^ width) :
    (padded width n).length = width := by
  have hlength := length_decimal_le hwidth h
  simp only [padded, List.length_append, List.length_replicate]
  omega

theorem isDigit_of_mem_padded {width : ℕ} (h : c ∈ padded width n) : isDigit c = true := by
  simp only [padded, List.mem_append, List.mem_replicate] at h
  rcases h with ⟨_, rfl⟩ | h
  · rfl
  · exact isDigit_of_mem_decimal h

/-- Zeros in front of a number do not change it. -/
theorem decimalValue?_padded (width n : ℕ) : decimalValue? (padded width n) = some n := by
  have hzeros (zeros : ℕ) (digits : List Char) :
      decimalValue? (List.replicate zeros '0' ++ digits) = decimalValue? digits := by
    induction zeros with
    | zero => rfl
    | succ zeros ih =>
      rw [List.replicate_succ, List.cons_append, ← ih]
      rfl
  rw [padded, hzeros, decimalValue?_decimal]

theorem digitValue?_eq (c : Char) :
    digitValue? c = if c.isDigit = true then some (c.toNat - 48) else none := by
  have hrange : ('0' ≤ c ∧ c ≤ '9') ↔ c.isDigit = true := by
    rw [Char.isDigit, Bool.and_eq_true, decide_eq_true_eq, decide_eq_true_eq]
    exact Iff.rfl
  rw [digitValue?]
  simp only [hrange]

/-- The number that decimal digits stand for. -/
def digitsValue (digits : List Char) : ℕ :=
  Nat.ofDigits 10 (digits.map fun c => c.toNat - 48).reverse

theorem digitsValue_append (digits : List Char) (c : Char) :
    digitsValue (digits ++ [c]) = digitsValue digits * 10 + (c.toNat - 48) := by
  rw [digitsValue, List.map_append, List.map_singleton, List.reverse_append, List.reverse_singleton,
    List.singleton_append, Nat.ofDigits_cons, ← digitsValue]
  omega

/-- Only digits are read, and by their values. -/
theorem decimalValue?_eq_some_iff {digits : List Char} : decimalValue? digits = some n ↔
    (∀ c ∈ digits, c.isDigit = true) ∧ n = digitsValue digits := by
  induction digits using List.reverseRecOn generalizing n with
  | nil =>
    rw [decimalValue?, List.foldl_nil, Option.some.injEq, eq_comm]
    exact (and_iff_right (List.forall_mem_nil _)).symm
  | append_singleton digits c ih =>
    rw [decimalValue?_append, digitsValue_append, digitValue?_eq, List.forall_mem_append,
      List.forall_mem_singleton]
    by_cases hc : c.isDigit = true
    · simp only [if_pos hc, Option.map_some, Option.bind_eq_some_iff, ih, Option.some.injEq]
      constructor
      · rintro ⟨_, ⟨hdigits, rfl⟩, rfl⟩
        exact ⟨⟨hdigits, hc⟩, rfl⟩
      · rintro ⟨⟨hdigits, _⟩, rfl⟩
        exact ⟨_, ⟨hdigits, rfl⟩, rfl⟩
    · rw [if_neg hc]
      refine iff_of_false ?_ fun h => hc h.1.2
      rw [Option.bind_eq_some_iff]
      rintro ⟨_, _, ⟨⟩⟩

/-- `IsNumeral text n` says that a text is the number `n` in decimal digits, at least one, with a
    plus sign before them or not. -/
def IsNumeral (text : List Char) (n : ℕ) : Prop :=
  ∃ digits, (text = digits ∨ text = '+' :: digits) ∧ digits ≠ [] ∧
    (∀ c ∈ digits, c.isDigit = true) ∧ n = digitsValue digits

/-- The digits of a numeral are what follows its plus sign, if it has one. -/
theorem isNumeral_iff {text : List Char} : IsNumeral text n ↔
    (if text.head? = some '+' then text.tail else text) ≠ [] ∧
      decimalValue? (if text.head? = some '+' then text.tail else text) = some n := by
  rw [decimalValue?_eq_some_iff]
  constructor
  · rintro ⟨digits, rfl | rfl, hne, hdigits, rfl⟩
    · have hplus : text.head? ≠ some '+' := fun hhead =>
        absurd (hdigits '+' (List.mem_of_head? hhead)) (by decide)
      rw [if_neg hplus]
      exact ⟨hne, hdigits, rfl⟩
    · exact ⟨hne, hdigits, rfl⟩
  · rintro ⟨hne, hdigits, rfl⟩
    refine ⟨_, ?_, hne, hdigits, rfl⟩
    split
    · next hplus =>
      obtain ⟨digits, rfl⟩ := List.head?_eq_some_iff.1 hplus
      exact Or.inr rfl
    · exact Or.inl rfl

/-- A text is read exactly if it is a numeral of a number up to the limit. -/
theorem unsigned?_eq_some_iff {text : List Char} :
    unsigned? limit text = some n ↔ IsNumeral text n ∧ n ≤ limit := by
  rw [isNumeral_iff, unsigned?]
  generalize (if text.head? = some '+' then text.tail else text) = digits
  cases digits with
  | nil => simp
  | cons c rest =>
    rw [and_iff_right (List.cons_ne_nil _ _)]
    cases decimalValue? (c :: rest) with
    | none => simp
    | some value =>
      have hread : (if value ≤ limit then some value else none) = some n ↔
          some value = some n ∧ n ≤ limit := by
        rw [Option.ite_none_right_eq_some, Option.some.injEq]
        exact ⟨fun ⟨hle, heq⟩ => ⟨heq, heq ▸ hle⟩, fun ⟨heq, hle⟩ => ⟨heq ▸ hle, heq⟩⟩
      exact hread

end StepRunner.Text
