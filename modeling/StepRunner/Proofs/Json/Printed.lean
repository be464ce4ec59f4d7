import StepRunner.Json.Parser
import StepRunner.Json.Printer
import StepRunner.Proofs.Text.Decimal
import StepRunner.Proofs.Text.Hexadecimal

namespace StepRunner.Json

variable {c : Char} {rest : List Char} {fuel : ℕ}

section Strings

/-- The number of a control character is read back from its escape. -/
theorem hexFour?_escape (h : c.toNat < 32) (rest : List Char) :
    hexFour? ('0' :: '0' :: hexDigit (c.toNat / 16) :: hexDigit c.toNat :: rest) =
      some (c.toNat, rest) := by
  have hzero : Text.hexValue? '0' = some 0 := by decide
  have hsum : ((0 * 16 + 0) * 16 + c.toNat / 16 % 16) * 16 + c.toNat % 16 = c.toNat := by omega
  simp only [hexFour?, hzero, hexDigit, Text.hexValue?_hexDigit]
  exact congrArg (fun n => some (n, rest)) hsum

/-- A one-letter escape is read as the character it stands for. -/
theorem stringBody_escape {e : Char} (he : e ≠ 'u') (hc : simpleEscape? e = some c) (fuel : ℕ)
    (rest : List Char) : stringBody (fuel + 1) ('\\' :: e :: rest) =
      (stringBody fuel rest).map fun (cs, rest) => (some c :: cs, rest) := by
  rw [stringBody]
  · rw [hc]
    cases stringBody fuel rest <;> rfl
  · exact fun heq => absurd heq he

/-- A printed character is read as itself. -/
theorem stringBody_printChar (fuel : ℕ) (c : Char) (rest : List Char) :
    stringBody (fuel + 1) (printChar c ++ rest) =
      (stringBody fuel rest).map fun (cs, rest) => (some c :: cs, rest) := by
  have hnat {n : ℕ} (h : c.toNat = n) : Char.ofNat n = c := h ▸ Char.ofNat_toNat c
  unfold printChar
  split_ifs with hquote hslash hline hreturn htab hback hfeed hcontrol
  · exact stringBody_escape (by decide) (by rw [hquote]; rfl) fuel rest
  · exact stringBody_escape (by decide) (by rw [hslash]; rfl) fuel rest
  · exact stringBody_escape (by decide) (by rw [hline]; rfl) fuel rest
  · exact stringBody_escape (by decide) (by rw [hreturn]; rfl) fuel rest
  · exact stringBody_escape (by decide) (by rw [htab]; rfl) fuel rest
  · exact stringBody_escape (by decide) (by rw [← hnat hback]; rfl) fuel rest
  · exact stringBody_escape (by decide) (by rw [← hnat hfeed]; rfl) fuel rest
  · simp only [List.cons_append, List.nil_append]
    rw [stringBody, hexFour?_escape hcontrol]
    have hwide : wideEscape c.toNat rest = (some c, rest) := by
      rw [wideEscape, if_neg (by omega), if_neg (by omega), Char.ofNat_toNat]
    simp only [Option.bind_eq_bind, Option.bind_some, hwide]
    cases stringBody fuel rest <;> rfl
  · rw [List.singleton_append, stringBody]
    · rw [if_neg (not_or.2 ⟨hslash, hcontrol⟩)]
      cases stringBody fuel rest <;> rfl
    · exact hquote
    · exact fun _ heq => absurd heq hslash
    · exact fun _ _ heq => absurd heq hslash

theorem length_le_printed (cs : List Char) : cs.length ≤ (cs.flatMap printChar).length := by
  have hchar (c : Char) : 0 < (printChar c).length := by
    unfold printChar
    split_ifs <;> exact Nat.succ_pos _
  induction cs with
  | nil => exact Nat.le_refl 0
  | cons c cs ih =>
    have hc := hchar c
    rw [List.flatMap_cons, List.length_append, List.length_cons]
    omega

/-- The text of a string is read back up to the closing quote. -/
theorem readString_printed (text : String) (rest : List Char) :
    readString (text.toList.flatMap printChar ++ '"' :: rest) = some (some text, rest) := by
  have hbody (cs : List Char) (fuel : ℕ) (hfuel : cs.length < fuel) :
      stringBody fuel (cs.flatMap printChar ++ '"' :: rest) = some (cs.map some, rest) := by
    induction cs generalizing fuel with
    | nil =>
      obtain ⟨fuel, rfl⟩ := Nat.exists_eq_add_one.2 (by omega : 0 < fuel)
      rfl
    | cons c cs ih =>
      obtain ⟨fuel, rfl⟩ := Nat.exists_eq_add_one.2 (by omega : 0 < fuel)
      rw [List.flatMap_cons, List.append_assoc, stringBody_printChar,
        ih fuel (by simpa using hfuel)]
      rfl
  have hlength : text.toList.length < (text.toList.flatMap printChar ++ '"' :: rest).length + 1 := by
    have hle := length_le_printed text.toList
    simp only [List.length_append, List.length_cons]
    omega
  have hall : (text.toList.map some).mapM id = some text.toList := by
    induction text.toList with
    | nil => rfl
    | cons c cs ih => simp [ih]
  rw [readString, hbody _ _ hlength]
  simp only [Option.bind_eq_bind, Option.bind_some, hall]
  simp

end Strings

/-- What may come after a value: nothing, or what separates or closes. -/
def IsAfterValue (rest : List Char) : Prop :=
  ∀ c ∈ rest.head?, c = ',' ∨ c = ']' ∨ c = '\x7d'

section Numbers

/-- A number ends where a value may end. -/
theorem leadingDigits_decimal (n : ℕ) (h : IsAfterValue rest) :
    leadingDigits (Text.decimal n ++ rest) = Text.decimal n := by
  have hstop : rest.takeWhile Text.isDigit = [] := by
    cases rest with
    | nil => rfl
    | cons c rest =>
      have hc : Text.isDigit c = false := by
        rcases h c rfl with rfl | rfl | rfl <;> decide
      rw [List.takeWhile_cons, if_neg (by rw [hc]; decide)]
  rw [leadingDigits, List.takeWhile_append_of_pos (fun c hc => Text.isDigit_of_mem_decimal hc),
    hstop, List.append_nil]

theorem integerLength?_decimal (n : ℕ) (h : IsAfterValue rest) :
    integerLength? (Text.decimal n ++ rest) = some (Text.decimal n).length := by
  have hzero : ¬((Text.decimal n).head? = some '0' ∧ 1 < (Text.decimal n).length) := by
    rintro ⟨hhead, hlength⟩
    by_cases hn : n = 0
    · rw [hn, Text.decimal, if_pos (by decide)] at hlength
      exact absurd hlength (by decide)
    · exact Text.head?_decimal_ne hn hhead
  rw [integerLength?, leadingDigits_decimal n h]
  simp only [List.isEmpty_iff, Text.decimal_ne_nil, if_neg hzero, if_false]

theorem fractionLength?_of_isAfterValue (h : IsAfterValue rest) : fractionLength? rest = some 0 := by
  unfold fractionLength?
  split
  · rcases h '.' rfl with h | h | h <;> cases h
  · rfl

theorem exponentLength?_of_isAfterValue (h : IsAfterValue rest) : exponentLength? rest = some 0 := by
  cases rest with
  | nil => rfl
  | cons c rest =>
    have hc : ¬(c = 'e' ∨ c = 'E') := by rcases h c rfl with rfl | rfl | rfl <;> decide
    simp only [exponentLength?, if_neg hc]

/-- A printed number is read as itself. -/
theorem readNumber_decimal (n : ℕ) (h : IsAfterValue rest) :
    readNumber (Text.decimal n ++ rest) = some (.natural n, rest) := by
  have hsign : (Text.decimal n ++ rest).head? ≠ some '-' := by
    rw [List.head?_append_of_ne_nil _ (Text.decimal_ne_nil n)]
    exact fun hhead => absurd (Text.isDigit_of_mem_decimal (List.mem_of_head? hhead)) (by decide)
  simp only [readNumber, if_neg hsign, List.drop_zero, integerLength?_decimal n h,
    Option.bind_eq_bind, Option.bind_some, Nat.zero_add, List.drop_left,
    fractionLength?_of_isAfterValue h, Nat.add_zero, exponentLength?_of_isAfterValue h,
    List.take_left, if_pos, Text.decimalValue?_decimal]
  rfl

end Numbers

end StepRunner.Json
