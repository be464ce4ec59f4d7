import StepRunner.Proofs.Text
import StepRunner.Text.Uuid

namespace StepRunner.Text

variable {c : Char} {digits : List Char} {text uuid : String}

/-- The hexadecimal digits without capitals. -/
def lowerHexDigits : List Char :=
  ['0', '1', '2', '3', '4', '5', '6', '7', '8', '9', 'a', 'b', 'c', 'd', 'e', 'f']

/-- The usual written form of an identifier: 32 hexadecimal digits without capitals, in groups. -/
def IsUuid (text : String) : Prop :=
  ∃ digits, digits.length = 32 ∧ (∀ c ∈ digits, c ∈ lowerHexDigits) ∧
    text = String.ofList (groupedUuid digits)

theorem of_mem_lowerHexDigits (h : c ∈ lowerHexDigits) :
    isHexDigit c = true ∧ c.toLower = c ∧ c ≠ '-' ∧ c ≠ 'u' ∧ c ≠ '\x7b' := by
  have hall : (lowerHexDigits.all fun c =>
      isHexDigit c && c.toLower == c && c != '-' && c != 'u' && c != '\x7b') = true := rfl
  simpa [and_assoc] using List.all_eq_true.1 hall c h

/-- A hexadecimal digit is one of these when it is no capital. -/
theorem toLower_mem_lowerHexDigits (h : isHexDigit c = true) : c.toLower ∈ lowerHexDigits := by
  have hall : ∀ n < 103, isHexDigit (Char.ofNat n) = true →
      (Char.ofNat n).toLower ∈ lowerHexDigits := by decide
  have hsmall : c.toNat < 103 := by
    simp only [isHexDigit, Char.isDigit, Bool.or_eq_true, Bool.and_eq_true, decide_eq_true_eq,
      Char.le_def, UInt32.le_iff_toNat_le] at h
    rcases h with (⟨_, h⟩ | ⟨_, h⟩) | ⟨_, h⟩
    · exact Nat.lt_of_le_of_lt (show c.toNat ≤ 57 from h) (by decide)
    · exact Nat.lt_of_le_of_lt (show c.toNat ≤ 102 from h) (by decide)
    · exact Nat.lt_of_le_of_lt (show c.toNat ≤ 70 from h) (by decide)
  have hc := hall c.toNat hsmall
  rw [Char.ofNat_toNat] at hc
  exact hc h

/-- The groups of an identifier are its digits. -/
theorem groupedDigits?_groupedUuid (hlength : digits.length = 32)
    (h : ∀ c ∈ digits, c ∈ lowerHexDigits) : groupedDigits? (groupedUuid digits) = some digits := by
  have hdash : ∀ c ∈ digits, c ≠ '-' := fun c hc => (of_mem_lowerHexDigits (h c hc)).2.2.1
  have hpieces : pieces '-' (groupedUuid digits) = [digits.take 8, (digits.drop 8).take 4,
      (digits.drop 12).take 4, (digits.drop 16).take 4, digits.drop 20] := by
    refine pieces_joinPieces (List.cons_ne_nil _ _) ?_
    simp only [List.forall_mem_cons]
    exact ⟨fun hmem => hdash _ (List.mem_of_mem_take hmem) rfl,
      fun hmem => hdash _ (List.mem_of_mem_drop (List.mem_of_mem_take hmem)) rfl,
      fun hmem => hdash _ (List.mem_of_mem_drop (List.mem_of_mem_take hmem)) rfl,
      fun hmem => hdash _ (List.mem_of_mem_drop (List.mem_of_mem_take hmem)) rfl,
      fun hmem => hdash _ (List.mem_of_mem_drop hmem) rfl, by simp⟩
  have hlengths : (pieces '-' (groupedUuid digits)).map List.length = [8, 4, 4, 4, 12] := by
    rw [hpieces]
    simp [hlength]
  have hflatten : [digits.take 8, (digits.drop 8).take 4, (digits.drop 12).take 4,
      (digits.drop 16).take 4, digits.drop 20].flatten = digits := by
    simp only [List.flatten_cons, List.flatten_nil, List.append_nil]
    rw [show digits.drop 20 = (digits.drop 16).drop 4 by simp, List.take_append_drop,
      show digits.drop 16 = (digits.drop 12).drop 4 by simp, List.take_append_drop,
      show digits.drop 12 = (digits.drop 8).drop 4 by simp, List.take_append_drop,
      List.take_append_drop]
  rw [groupedDigits?, if_pos hlengths, hpieces, hflatten]

/-- The digits of an identifier in its usual form are read back. -/
theorem uuidDigits?_groupedUuid (hlength : digits.length = 32)
    (h : ∀ c ∈ digits, c ∈ lowerHexDigits) : uuidDigits? (groupedUuid digits) = some digits := by
  have hgrouped : (groupedUuid digits).length = 36 := by
    simp [groupedUuid, joinPieces, hlength]
  obtain ⟨c, tail, rfl⟩ : ∃ c tail, digits = c :: tail :=
    List.exists_cons_of_ne_nil (by rintro rfl; cases hlength)
  obtain ⟨_, _, _, hu, hbrace⟩ := of_mem_lowerHexDigits (h c List.mem_cons_self)
  have hfirst : ∃ others, groupedUuid (c :: tail) = c :: others := ⟨_, rfl⟩
  obtain ⟨others, hothers⟩ := hfirst
  have hname : dropStart? "urn:uuid:".toList (groupedUuid (c :: tail)) = none := by
    rw [hothers]
    exact if_neg hu.symm
  rw [uuidDigits?, if_neg (by omega), hname]
  · exact groupedDigits?_groupedUuid hlength h
  · intro inside heq
    rw [hothers] at heq
    exact hbrace (List.cons.inj heq).1

/-- The usual form of an identifier is read as itself. -/
theorem uuid?_of_isUuid (h : IsUuid text) : uuid? text = some text := by
  obtain ⟨digits, hlength, hdigits, rfl⟩ := h
  have hall : digits.all isHexDigit = true :=
    List.all_eq_true.2 fun c hc => (of_mem_lowerHexDigits (hdigits c hc)).1
  have hlower : digits.map Char.toLower = digits :=
    (List.map_congr_left fun c hc => (of_mem_lowerHexDigits (hdigits c hc)).2.1).trans
      (List.map_id digits)
  rw [uuid?, String.toList_ofList, uuidDigits?_groupedUuid hlength hdigits]
  simp only [Option.bind_eq_bind, Option.bind_some, hall, hlower]
  rfl

theorem length_of_groupedDigits? {grouped : List Char} (h : groupedDigits? grouped = some digits) :
    digits.length = 32 := by
  rw [groupedDigits?] at h
  split_ifs at h with hlengths
  rw [← Option.some.inj h, List.length_flatten, hlengths]
  rfl

/-- What is read as the digits of an identifier is 32 of them. -/
theorem length_of_uuidDigits? {written : List Char} (h : uuidDigits? written = some digits) :
    digits.length = 32 := by
  unfold uuidDigits? at h
  split_ifs at h with hplain
  · exact Option.some.inj h ▸ hplain
  split at h
  · split_ifs at h
    exact length_of_groupedDigits? h
  · split at h
    · exact length_of_groupedDigits? h
    · exact length_of_groupedDigits? h

/-- What is read as an identifier is given in the usual form. -/
theorem isUuid_of_uuid? (h : uuid? text = some uuid) : IsUuid uuid := by
  obtain ⟨digits, hdigits, h⟩ := Option.bind_eq_some_iff.1 h
  split_ifs at h with hall
  cases h
  refine ⟨digits.map Char.toLower, ?_, ?_, rfl⟩
  · rw [List.length_map]
    exact length_of_uuidDigits? hdigits
  · intro c hc
    obtain ⟨digit, hdigit, rfl⟩ := List.mem_map.1 hc
    exact toLower_mem_lowerHexDigits (List.all_eq_true.1 hall digit hdigit)

end StepRunner.Text
