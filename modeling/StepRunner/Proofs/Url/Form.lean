import StepRunner.Proofs.Text
import StepRunner.Proofs.Url.Percent

namespace StepRunner.Url

variable {c : Char} {text name value query rest : List Char}
  {fields : List (List Char × List Char)}

/-- The octets of the name or value of a form's field. -/
def formDecode (text : List Char) : List UInt8 :=
  percentDecode (text.map fun c => if c = '+' then ' ' else c)

/-- The fields of a query: their names and values. -/
def formFields (query : List Char) : List (List UInt8 × List UInt8) :=
  ((Text.pieces '&' query).filter (· ≠ [])).map fun field =>
    let (name, value) := (Text.splitOnce '=' field).getD (field, [])
    (formDecode name, formDecode value)

/-- The characters that are written for an octet: one that stands for itself, a plus sign or a
    percent sign with two digits. -/
theorem formOctet_cases (b : UInt8) :
    (∃ c, formOctet b = [c] ∧ Text.encodeUtf8 [c] = [b] ∧
      (c.isAlphanum = true ∨ c ∈ "*-._".toList)) ∨
    (b = 0x20 ∧ formOctet b = ['+']) ∨ formOctet b = percentOctet b := by
  dsimp only [formOctet]
  split
  · next h =>
    rw [Bool.and_eq_true, decide_eq_true_eq, Bool.or_eq_true, List.contains_iff_mem] at h
    refine Or.inl ⟨Char.ofNat b.toNat, rfl, ?_, h.2⟩
    have hascii : ∀ k < 128, Text.encodeUtf8 [Char.ofNat k] = [k.toUInt8] := by decide
    have hlow : b.toNat < 128 := h.1
    rw [hascii _ hlow, Nat.toUInt8, UInt8.ofNat_toNat]
  · split
    · next h =>
      refine Or.inr (Or.inl ⟨?_, rfl⟩)
      have hspace : ∀ k < 256, Char.ofNat k = ' ' → k = 0x20 := by decide +kernel
      exact UInt8.toNat_inj.1 (hspace _ b.toNat_lt h)
    · exact Or.inr (Or.inr rfl)

private theorem ne_of_isPlain {d : Char} (h : c.isAlphanum = true ∨ c ∈ "*-._".toList)
    (hd : d.isAlphanum = false) (hmark : d ∉ "*-._".toList) : c ≠ d := by
  rintro rfl
  rcases h with h | h
  · rw [hd] at h
    cases h
  · exact hmark h

/-- Separators do not occur in what was encoded. -/
theorem not_mem_formEncode (hc : c.isAlphanum = false) (hmark : c ∉ "*-._+%".toList) :
    c ∉ formEncode text := by
  simp only [String.reduceToList, List.mem_cons, List.not_mem_nil, or_false, not_or] at hmark
  obtain ⟨hstar, hdash, hdot, hline, hplus, hpercent⟩ := hmark
  rw [formEncode, List.mem_flatMap]
  rintro ⟨b, _, hmem⟩
  rcases formOctet_cases b with ⟨d, heq, _, hd⟩ | ⟨_, heq⟩ | heq <;> rw [heq] at hmem
  · exact ne_of_isPlain hd hc (by simp [hstar, hdash, hdot, hline]) (List.mem_singleton.1 hmem).symm
  · exact hplus (List.mem_singleton.1 hmem)
  · rw [percentOctet, List.mem_cons, List.mem_cons, List.mem_singleton] at hmem
    rcases hmem with heq | heq | heq
    · exact hpercent heq
    all_goals
      rw [heq, hexDigit, Text.hexDigit_isAlphanum] at hc
      cases hc

theorem formDecode_formOctet (b : UInt8) (rest : List Char) :
    formDecode (formOctet b ++ rest) = b :: formDecode rest := by
  have hplus {d : Char} (hd : d.isAlphanum = true) : d ≠ '+' := by
    rintro rfl
    cases hd
  rw [formDecode, List.map_append, formDecode]
  rcases formOctet_cases b with ⟨c, heq, hoctet, hplain⟩ | ⟨rfl, heq⟩ | heq <;> rw [heq]
  · have hne : c ≠ '+' := ne_of_isPlain hplain (by decide) (by decide)
    rw [List.map_singleton, if_neg hne, List.singleton_append,
      percentDecode_cons (ne_of_isPlain hplain (by decide) (by decide)), hoctet]
    rfl
  · rfl
  · have hself : (percentOctet b).map (fun c => if c = '+' then ' ' else c) = percentOctet b := by
      simp [percentOctet, hexDigit, hplus (Text.hexDigit_isAlphanum _ _)]
    rw [hself, percentDecode_percentOctet]

theorem formDecode_formEncode (text : List Char) :
    formDecode (formEncode text) = Text.encodeUtf8 text := by
  have hall (octets : List UInt8) : formDecode (octets.flatMap formOctet) = octets := by
    induction octets with
    | nil => rfl
    | cons b octets ih => rw [List.flatMap_cons, formDecode_formOctet, ih]
  exact hall _

/-- One encoded field is read as it was given. -/
theorem formFields_field (name value : List Char) :
    formFields (formEncode name ++ '=' :: formEncode value) =
      [(Text.encodeUtf8 name, Text.encodeUtf8 value)] := by
  have hname : '=' ∉ formEncode name := not_mem_formEncode (by decide) (by decide)
  have hand : '&' ∉ formEncode name ++ '=' :: formEncode value := by
    rw [List.mem_append, List.mem_cons]
    rintro (hmem | heq | hmem)
    · exact not_mem_formEncode (by decide) (by decide) hmem
    · cases heq
    · exact not_mem_formEncode (by decide) (by decide) hmem
  rw [formFields, Text.pieces_of_not_mem hand, List.filter_cons_of_pos (by simp), List.filter_nil,
    List.map_singleton, Text.splitOnce_eq_some_iff.2 ⟨rfl, hname⟩]
  simp only [Option.getD_some, formDecode_formEncode]

theorem formFields_append (query rest : List Char) :
    formFields (query ++ '&' :: rest) = formFields query ++ formFields rest := by
  rw [formFields, Text.pieces_append, List.filter_append, List.map_append]
  rfl

/-- Fields that are added to a query come after its own ones and are read as they were given. -/
theorem formFields_addFields (query : List Char) (fields : List (List Char × List Char)) :
    formFields (addFields query fields) = formFields query ++ fields.map fun field =>
      (Text.encodeUtf8 field.1, Text.encodeUtf8 field.2) := by
  induction fields generalizing query with
  | nil => rw [addFields, List.map_nil, List.append_nil]
  | cons field fields ih =>
    obtain ⟨name, value⟩ := field
    rw [addFields, ih, List.map_cons]
    split
    · next hempty => rw [hempty, formFields_field]; rfl
    · rw [formFields_append, formFields_field, List.append_assoc]; rfl

end StepRunner.Url
