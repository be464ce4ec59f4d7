import StepRunner.Proofs.Text.Decimal
import StepRunner.Proofs.Time.Calendar
import StepRunner.Time.Timestamp.Reader

namespace StepRunner.Timestamp

namespace Reader

variable {α β : Type} {c : Char} {text rest : List Char} {width n : ℕ}

/-- A reader that takes a value hands on what follows it. -/
theorem bind_eq {x : Reader α} {next : α → Reader β} {value : α} (h : x text = some (value, rest)) :
    (x >>= next) text = next value rest := by
  change (x text).bind (fun found => next found.1 found.2) = _
  rw [h]
  rfl

theorem bind_get (next : List Char → Reader β) (text : List Char) :
    (get >>= next : Reader β) text = next text text := rfl

theorem bind_set (next : PUnit → Reader β) (text rest : List Char) :
    (set rest >>= next : Reader β) text = next ⟨⟩ rest := rfl

/-- What follows a number does not go on with a digit. -/
def EndsNumber (rest : List Char) : Prop := ∀ c ∈ rest.head?, Text.isDigit c = false

theorem endsNumber_cons (h : Text.isDigit c = false) (rest : List Char) : EndsNumber (c :: rest) :=
  fun _ hc => Option.some.inj hc ▸ h

/-- Blanks are skipped up to something else. -/
theorem skip_cons {p : Char → Bool} (h : p c = false) (rest : List Char) :
    skip p (c :: rest) = some ((), c :: rest) := by
  rw [skip, List.dropWhile_cons, if_neg (by rw [h]; decide)]

theorem exists_padded_cons (width n : ℕ) : ∃ c tail, Text.padded width n = c :: tail ∧
    Text.isDigit c = true := by
  have hne : Text.padded width n ≠ [] := by
    simp [Text.padded, Text.decimal_ne_nil]
  obtain ⟨c, tail, hcons⟩ := List.exists_cons_of_ne_nil hne
  exact ⟨c, tail, hcons, Text.isDigit_of_mem_padded (hcons ▸ List.mem_cons_self)⟩

/-- A number is read back up to what follows it. -/
theorem number_padded {least most : ℕ} (hleast : least ≤ (Text.padded width n).length)
    (hmost : (Text.padded width n).length ≤ most) (hrest : EndsNumber rest) :
    number least most (Text.padded width n ++ rest) = some (n, rest) := by
  have hstop (count : ℕ) : (rest.take count).takeWhile Text.isDigit = [] := by
    cases rest with
    | nil => simp
    | cons c rest =>
      cases count with
      | zero => rfl
      | succ count =>
        rw [List.take_succ_cons, List.takeWhile_cons, if_neg (by rw [hrest c rfl]; decide)]
  have hdigits : ((Text.padded width n ++ rest).take most).takeWhile Text.isDigit =
      Text.padded width n := by
    rw [List.take_append, List.take_of_length_le hmost,
      List.takeWhile_append_of_pos (fun c hc => Text.isDigit_of_mem_padded hc), hstop,
      List.append_nil]
  simp only [number, hdigits]
  rw [if_neg (Nat.not_lt.2 hleast), Text.decimalValue?_padded, List.drop_left]
  rfl

/-- A field of two digits is read back. -/
theorem shortField_padded (h : n < 100) (hrest : EndsNumber rest) :
    shortField (Text.padded 2 n ++ rest) = some (n, rest) := by
  have hlength : (Text.padded 2 n).length = 2 := Text.length_padded (by decide) h
  have hskip : skip Text.isBlank (Text.padded 2 n ++ rest) =
      some ((), Text.padded 2 n ++ rest) := by
    obtain ⟨c, tail, hcons, hdigit⟩ := exists_padded_cons 2 n
    rw [hcons, List.cons_append]
    exact skip_cons (Text.isBlank_of_isDigit hdigit) _
  rw [shortField, bind_eq hskip]
  exact number_padded (by omega) (by omega) hrest

theorem separator_cons (h : Text.isBlank c = false) (rest : List Char) :
    separator c (c :: rest) = some ((), rest) := by
  rw [separator, bind_eq (skip_cons h rest), char, if_pos rfl]

theorem wholeNumber_padded (hrest : EndsNumber rest) :
    wholeNumber (Text.padded width n ++ rest) = some (n, rest) := by
  obtain ⟨c, tail, hcons, _⟩ := exists_padded_cons width n
  refine number_padded ?_ ?_ hrest
  · rw [hcons]
    exact Nat.succ_pos _
  · rw [List.length_append]
    exact Nat.le_add_right _ _

/-- A field of two digits and the separator after it are read back. -/
theorem bind_shortField_separator {next : ℕ → Reader β} (h : n < 100)
    (hblank : Text.isBlank c = false) (hdigit : Text.isDigit c = false) (rest : List Char) :
    (shortField >>= fun value => separator c >>= fun _ => next value)
      (Text.padded 2 n ++ c :: rest) = next n rest := by
  rw [bind_eq (shortField_padded h (endsNumber_cons hdigit rest)),
    bind_eq (separator_cons hblank rest)]

theorem oneOf_cons {cs : List Char} (h : c ∈ cs) (rest : List Char) :
    oneOf cs (c :: rest) = some ((), rest) := by
  rw [oneOf, if_pos h]

/-- A year is read back, with its sign if it has one. -/
theorem year_yearText (year : Int) (hrest : EndsNumber rest) :
    Reader.year (yearText year ++ rest) = some (year, rest) := by
  by_cases hshort : 0 ≤ year ∧ year ≤ 9999
  · have hlength : (Text.padded 4 year.toNat).length = 4 :=
      Text.length_padded (by decide) (by omega)
    have hnumber : number 1 4 (Text.padded 4 year.toNat ++ rest) = some (year.toNat, rest) :=
      number_padded (by omega) (by omega) hrest
    obtain ⟨c, tail, hcons, hdigit⟩ := exists_padded_cons 4 year.toNat
    have hvalue : (year.toNat : Int) = year := by omega
    rw [yearText, if_pos hshort]
    rw [hcons, List.cons_append] at hnumber ⊢
    rw [Reader.year, bind_eq (skip_cons (Text.isBlank_of_isDigit hdigit) _), bind_get]
    -- a digit is no sign, so that the plain form is read
    refine (congrFun (?_ : _ = (do return (← number 1 4 : ℕ) : Reader Int)) _).trans ?_
    · split
      · next heq =>
        obtain rfl := (List.cons.inj heq).1
        exact absurd hdigit (by decide)
      · next heq =>
        obtain rfl := (List.cons.inj heq).1
        exact absurd hdigit (by decide)
      · rfl
    · rw [bind_eq hnumber, hvalue]
      rfl
  · rw [yearText, if_neg hshort]
    by_cases hsign : year < 0
    · have hvalue : -(year.natAbs : Int) = year := by omega
      rw [if_pos hsign, if_pos hsign, List.cons_append, Reader.year,
        bind_eq (skip_cons (by decide) _), bind_get]
      simp only
      rw [bind_set, bind_eq (wholeNumber_padded hrest), hvalue]
      rfl
    · have hvalue : (year.natAbs : Int) = year := by omega
      rw [if_neg hsign, if_neg hsign, List.cons_append, Reader.year,
        bind_eq (skip_cons (by decide) _), bind_get]
      simp only
      rw [bind_set, bind_eq (wholeNumber_padded hrest), hvalue]
      rfl

/-- Digits after a point are read as a fraction of a second. -/
theorem fraction_padded (hwidth : 0 < width ∧ width ≤ 9) (h : n < 10 ^ width)
    (hc : Text.isDigit c = false) (rest : List Char) :
    fraction ('.' :: Text.padded width n ++ c :: rest) =
      some (n * 10 ^ (9 - width), c :: rest) := by
  have hlength : (Text.padded width n).length = width := Text.length_padded hwidth.1 h
  have hnumber : number 1 9 (Text.padded width n ++ c :: rest) = some (n, c :: rest) :=
    number_padded (by omega) (by omega) (endsNumber_cons hc rest)
  have htaken : (Text.padded width n ++ c :: rest).length - (c :: rest).length = width := by
    rw [List.length_append]
    omega
  rw [List.cons_append, fraction, hnumber]
  simp only [Option.bind_eq_bind, Option.bind_some, htaken, skip_cons hc]
  rfl

/-- A fraction of a second is read back. -/
theorem fraction_fractionText {nano : ℕ} (h : nano < 1000000000) (hc : Text.isDigit c = false)
    (hpoint : c ≠ '.') (rest : List Char) :
    fraction (fractionText nano ++ c :: rest) = some (nano, c :: rest) := by
  rw [fractionText]
  split_ifs with hzero hmillis hmicros
  · rw [List.nil_append, fraction, hzero]
    exact fun _ heq => absurd (List.cons.inj heq).1 hpoint
  · rw [fraction_padded (by decide) (by omega) hc]
    have hvalue : nano / 1000000 * 10 ^ (9 - 3) = nano := by omega
    rw [hvalue]
  · rw [fraction_padded (by decide) (by omega) hc]
    have hvalue : nano / 1000 * 10 ^ (9 - 6) = nano := by omega
    rw [hvalue]
  · rw [fraction_padded (by decide) (by omega) hc]
    have hvalue : nano * 10 ^ (9 - 9) = nano := by omega
    rw [hvalue]

theorem endsNumber_fractionText (nano : ℕ) (hc : Text.isDigit c = false) (rest : List Char) :
    EndsNumber (fractionText nano ++ c :: rest) := by
  rw [fractionText]
  split_ifs
  · exact endsNumber_cons hc rest
  all_goals exact endsNumber_cons (by decide) _

end Reader

/-- The second of the minute as it is written: a leap second is one more. -/
def writtenSecond (t : Timestamp) : ℕ :=
  if 1000000000 ≤ t.nano then t.secondOfDay % 60 + 1 else t.secondOfDay % 60

theorem writtenSecond_le (t : Timestamp) : t.writtenSecond ≤ 60 := by
  rw [writtenSecond]
  split_ifs <;> omega

theorem secondOfDay_eq (t : Timestamp) : (t.secondOfDay : Int) = t.second % 86400 :=
  Int.toNat_of_nonneg (by omega)

theorem exists?_date (t : Timestamp) : t.date.exists? = true := Date.exists?_ofDayNumber _

/-- Second 60 stands for the leap second after second 59. -/
theorem second_of_writtenSecond (t : Timestamp) :
    (if t.writtenSecond = 60 then (59, t.nano % 1000000000 + 1000000000)
      else (t.writtenSecond, t.nano % 1000000000)) = (t.secondOfDay % 60, t.nano) := by
  have hday := t.secondOfDay_eq
  have hnano := t.nano_lt
  rw [writtenSecond]
  by_cases hlate : 1000000000 ≤ t.nano
  · have hlast := t.leap hlate
    rw [if_pos hlate, if_pos (by omega)]
    exact Prod.ext (by omega) (by omega)
  · rw [if_neg hlate, if_neg (by omega)]
    exact Prod.ext rfl (by omega)

/-- The fields of a timestamp give it back. -/
theorem ofFields?_eq (t : Timestamp) :
    ofFields? t.date (t.secondOfDay / 3600) (t.secondOfDay / 60 % 60) t.writtenSecond
      (t.nano % 1000000000) 0 = some t := by
  have hnumber : t.date.dayNumber = t.second / 86400 := Date.dayNumber_ofDayNumber _
  obtain ⟨hfirst, hlast⟩ : -262143 ≤ t.date.year ∧ t.date.year ≤ 262142 := by
    have hearliest := t.earliest_le
    have hlatest := t.le_latest
    exact Date.year_ofDayNumber (by omega) (by omega)
  have hday := t.secondOfDay_eq
  have hfields : (!t.date.exists? || decide (23 < t.secondOfDay / 3600) ||
      decide (59 < t.secondOfDay / 60 % 60) || decide (60 < t.writtenSecond)) = false := by
    rw [t.exists?_date]
    simp only [Bool.not_true, Bool.false_or, Bool.or_eq_false_iff, decide_eq_false_iff_not]
    exact ⟨⟨by omega, by omega⟩, Nat.not_lt.2 t.writtenSecond_le⟩
  have htime : t.date.dayNumber * 86400 + ((t.secondOfDay / 3600 * 3600 +
      t.secondOfDay / 60 % 60 * 60 + t.secondOfDay % 60 : ℕ) : Int) - 0 = t.second := by omega
  have hyear : ¬(decide (t.date.year < -262143) || decide (262142 < t.date.year)) = true := by
    simp only [Bool.or_eq_true, decide_eq_true_eq]
    omega
  simp only [ofFields?, hfields, second_of_writtenSecond, htime]
  rw [if_neg (by decide), if_neg hyear, ofParts?,
    dif_pos ⟨t.nano_lt, t.leap, t.earliest_le, t.le_latest⟩]

theorem text_eq (t : Timestamp) : t.text =
    yearText t.date.year ++ '-' :: (Text.padded 2 t.date.month ++ '-' :: (Text.padded 2 t.date.day ++
      'T' :: (Text.padded 2 (t.secondOfDay / 3600) ++ ':' ::
        (Text.padded 2 (t.secondOfDay / 60 % 60) ++ ':' :: (Text.padded 2 t.writtenSecond ++
          (fractionText (t.nano % 1000000000) ++ ['Z'])))))) := by
  simp only [text, writtenSecond, List.append_assoc, List.cons_append]

/-- A timestamp is read from its text. -/
theorem lenientReader_text (t : Timestamp) : lenientReader t.text = some (t, []) := by
  have hday := t.secondOfDay_eq
  have hsecond := t.writtenSecond_le
  obtain ⟨hmonth, hdayOfMonth⟩ : _ ∧ _ := Date.exists?_iff.1 t.exists?_date
  have hmost := Date.daysInMonth_le t.date.year t.date.month
  rw [text_eq, lenientReader,
    Reader.bind_eq (Reader.year_yearText _ (Reader.endsNumber_cons (by decide) _)),
    Reader.bind_eq (Reader.separator_cons (by decide) _),
    Reader.bind_shortField_separator (by omega) (by decide) (by decide),
    Reader.bind_eq (Reader.shortField_padded (by omega) (Reader.endsNumber_cons (by decide) _)),
    Reader.bind_eq (Reader.oneOf_cons (by decide) _),
    Reader.bind_shortField_separator (by omega) (by decide) (by decide),
    Reader.bind_shortField_separator (by omega) (by decide) (by decide),
    Reader.bind_eq (Reader.shortField_padded (by omega)
      (Reader.endsNumber_fractionText _ (by decide) _)),
    Reader.bind_eq (Reader.fraction_fractionText (by omega) (by decide) (by decide) _),
    Reader.bind_eq (show Reader.lenientOffset ['Z'] = some (0, []) from rfl), if_neg (by decide)]
  change (liftM (ofFields? t.date _ _ _ _ _) : Reader Timestamp) [] = _
  rw [ofFields?_eq]
  rfl

/-- A timestamp is read back from its text. -/
theorem readLenient?_text (t : Timestamp) : readLenient? t.text = some t := by
  rw [readLenient?, lenientReader_text]
  rfl

end StepRunner.Timestamp
