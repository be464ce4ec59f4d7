import Mathlib.Data.List.Basic
import StepRunner.Proofs.Text.Hexadecimal
import StepRunner.Url.Percent

namespace StepRunner

/-- Texts differ in their octets. -/
theorem Text.encodeUtf8_injective : Function.Injective Text.encodeUtf8 := by
  intro first second h
  have hbytes : first.utf8Encode = second.utf8Encode := congrArg List.toByteArray h
  rwa [← String.toByteArray_ofList, ← String.toByteArray_ofList, String.toByteArray_inj,
    String.ofList_inj] at hbytes

theorem Text.encodeUtf8_append (first second : List Char) :
    Text.encodeUtf8 (first ++ second) = Text.encodeUtf8 first ++ Text.encodeUtf8 second :=
  List.flatMap_append

theorem Text.encodeUtf8_cons (c : Char) (rest : List Char) :
    Text.encodeUtf8 (c :: rest) = Text.encodeUtf8 [c] ++ Text.encodeUtf8 rest :=
  Text.encodeUtf8_append [c] rest

namespace Url

variable {set : Char → Bool} {c : Char} {text rest : List Char}

theorem percentDecode_percentOctet (b : UInt8) (rest : List Char) :
    percentDecode (percentOctet b ++ rest) = b :: percentDecode rest := by
  have hlow : b.toNat < 256 := b.toNat_lt
  have hvalue : b.toNat / 16 % 16 * 16 + b.toNat % 16 = b.toNat := by omega
  simp only [percentOctet, List.cons_append, List.nil_append, percentDecode,
    hexDigit, Text.hexValue?_hexDigit, hvalue]
  rw [Nat.toUInt8, UInt8.ofNat_toNat]

theorem percentDecode_octets (octets : List UInt8) (rest : List Char) :
    percentDecode (octets.flatMap percentOctet ++ rest) = octets ++ percentDecode rest := by
  induction octets with
  | nil => rfl
  | cons b octets ih =>
    rw [List.flatMap_cons, List.append_assoc, percentDecode_percentOctet, ih, List.cons_append]

theorem percentDecode_cons (hc : c ≠ '%') (rest : List Char) :
    percentDecode (c :: rest) = Text.encodeUtf8 [c] ++ percentDecode rest := by
  rw [percentDecode]
  intro _ _ _ heq
  exact absurd heq hc

/-- What was encoded is decoded to its octets, if percent signs were encoded too. -/
theorem percentDecode_percentEncode_append (hset : set '%' = true) (text rest : List Char) :
    percentDecode (percentEncode set text ++ rest) = Text.encodeUtf8 text ++ percentDecode rest := by
  induction text with
  | nil => rfl
  | cons c text ih =>
    rw [percentEncode, List.flatMap_cons, ← percentEncode, List.append_assoc,
      Text.encodeUtf8_cons c text, List.append_assoc]
    split
    · rw [percentDecode_octets, ih]
    · next hc =>
      have hne : c ≠ '%' := by
        rintro rfl
        exact hc hset
      rw [List.singleton_append, percentDecode_cons hne, ih]

theorem percentDecode_percentEncode (hset : set '%' = true) (text : List Char) :
    percentDecode (percentEncode set text) = Text.encodeUtf8 text := by
  have hdecode := percentDecode_percentEncode_append hset text []
  rwa [List.append_nil, percentDecode, List.append_nil] at hdecode

theorem percentEncode_injective (hset : set '%' = true) :
    Function.Injective (percentEncode set) := by
  intro first second h
  apply Text.encodeUtf8_injective
  rw [← percentDecode_percentEncode hset, h, percentDecode_percentEncode hset]

/-- Characters that are encoded do not occur in what was encoded, percent signs and digits apart. -/
theorem not_mem_percentEncode (hc : set c = true) (hpercent : c ≠ '%')
    (hdigit : c.isAlphanum = false) : c ∉ percentEncode set text := by
  rw [percentEncode, List.mem_flatMap]
  rintro ⟨d, _, hmem⟩
  split at hmem
  · obtain ⟨b, _, hmem⟩ := List.mem_flatMap.1 hmem
    rw [percentOctet] at hmem
    rcases List.mem_cons.1 hmem with heq | hmem
    · exact hpercent heq
    have hhex : ∃ n, c = hexDigit n := by
      rcases List.mem_cons.1 hmem with heq | hmem
      · exact ⟨_, heq⟩
      · exact ⟨_, List.mem_singleton.1 hmem⟩
    obtain ⟨n, rfl⟩ := hhex
    rw [hexDigit, Text.hexDigit_isAlphanum] at hdigit
    cases hdigit
  · next hd =>
    rw [List.mem_singleton.1 hmem] at hc
    exact hd hc

theorem percentEncode_ne_nil (h : text ≠ []) : percentEncode set text ≠ [] := by
  obtain ⟨c, rest, rfl⟩ := List.exists_cons_of_ne_nil h
  rw [percentEncode, List.flatMap_cons]
  intro hnil
  have hfirst := (List.append_eq_nil_iff.1 hnil).1
  split at hfirst
  · rw [Text.encodeUtf8, List.flatMap_singleton, List.flatMap_eq_nil_iff] at hfirst
    have hchar : String.utf8EncodeChar c ≠ [] := String.utf8EncodeChar_ne_nil
    obtain ⟨b, octets, hoctets⟩ := List.exists_cons_of_ne_nil hchar
    cases hfirst b (by rw [hoctets]; exact List.mem_cons_self)
  · cases hfirst

end Url

end StepRunner
