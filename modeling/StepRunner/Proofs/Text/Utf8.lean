import Mathlib.Data.String.Basic
import StepRunner.Text.Utf8

namespace StepRunner.Text

variable {first second : List Char}

/-- The octets of a character are below those of a greater one, whatever follows them. -/
theorem utf8EncodeChar_append_lt {c d : Char} (h : c < d) (after after' : List UInt8) :
    String.utf8EncodeChar c ++ after < String.utf8EncodeChar d ++ after' := by
  have hlt : c.val.toNat < d.val.toNat := UInt32.lt_iff_toNat_lt.1 h
  have hmax : d.val.toNat < 1114112 := by
    rcases d.valid with hd | hd
    · exact Nat.lt_trans hd (by decide)
    · exact hd.2
  -- Digit by digit, so that each one is known by the quotient before it.
  have hquot (n : Nat) : n / 4096 = n / 64 / 64 ∧ n / 262144 = n / 64 / 64 / 64 := by omega
  unfold String.utf8EncodeChar
  dsimp only
  -- A character of more octets has a greater first one.
  split_ifs <;>
    simp only [List.cons_append, List.nil_append, List.cons_lt_cons_iff, UInt8.lt_iff_toNat_lt,
      ← UInt8.toNat_inj, UInt8.toNat_ofNat', hquot] <;> omega

/-- Texts are in the order of their octets. -/
theorem encodeUtf8_lt (h : first < second) : encodeUtf8 first < encodeUtf8 second := by
  induction first generalizing second with
  | nil =>
    cases second with
    | nil => cases h
    | cons d second =>
      obtain ⟨octet, octets, hcons⟩ :=
        List.exists_cons_of_ne_nil (String.utf8EncodeChar_ne_nil (c := d))
      rw [encodeUtf8, encodeUtf8, List.flatMap_cons, hcons]
      exact List.nil_lt_cons _ _
  | cons c first ih =>
    cases second with
    | nil => cases h
    | cons d second =>
      rw [encodeUtf8, encodeUtf8, List.flatMap_cons, List.flatMap_cons]
      rcases List.cons_lt_cons_iff.1 h with hlt | ⟨rfl, hrest⟩
      · exact utf8EncodeChar_append_lt hlt _ _
      · exact List.append_left_lt (ih hrest)

end StepRunner.Text
