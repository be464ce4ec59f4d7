import StepRunner.Proofs.Json.Printed

namespace StepRunner.Json

/-- A value that its text gives back: it has no numbers but plain ones, and no texts with unpaired
    surrogates. -/
inductive IsPlain : Json → Prop where
  | null : IsPlain .null
  | bool (value : Bool) : IsPlain (.bool value)
  | natural (value : ℕ) : IsPlain (.natural value)
  | string (text : String) : IsPlain (.string text)
  | array {elements : List Json} (h : ∀ value ∈ elements, IsPlain value) : IsPlain (.array elements)
  | object {members : List (Option String × Json)} (hnames : ∀ member ∈ members, member.1.isSome)
      (hvalues : ∀ member ∈ members, IsPlain member.2) : IsPlain (.object members)

variable {c : Char} {rest tail : List Char} {fuel : ℕ} {value : Json}

theorem skipSpace_cons (h : isSpace c = false) (rest : List Char) :
    skipSpace (c :: rest) = c :: rest := by
  rw [skipSpace, List.dropWhile_cons, if_neg (by rw [h]; decide)]

theorem isSpace_of_isDigit (h : Text.isDigit c = true) : isSpace c = false := by
  by_contra hspace
  simp only [isSpace, Bool.not_eq_false, Bool.or_eq_true, beq_iff_eq] at hspace
  rcases hspace with ((rfl | rfl) | rfl) | rfl <;> exact absurd h (by decide)

/-- How a value is read is decided by its first character that is no space. -/
alias readValue_succ := readValue.eq_2

/-- A text that starts with a digit is read as a number. -/
theorem readValue_of_isDigit (h : Text.isDigit c = true) (fuel : ℕ) (rest : List Char) :
    readValue (fuel + 1) (c :: rest) = readNumber (c :: rest) := by
  rw [readValue_succ, skipSpace_cons (isSpace_of_isDigit h)]
  split
  case h_7 => rfl
  all_goals
    next heq =>
      obtain rfl := (List.cons.inj heq).1
      exact absurd h (by decide)

/-- The text of a value does not start like the space or the bracket that would be skipped. -/
theorem exists_print_cons (h : value.IsPlain) :
    ∃ c tail, print value = c :: tail ∧ isSpace c = false ∧ c ≠ ']' := by
  cases h with
  | null => exact ⟨'n', _, rfl, by decide, by decide⟩
  | bool value => cases value <;> exact ⟨_, _, rfl, by decide, by decide⟩
  | natural n =>
    obtain ⟨c, tail, hdecimal⟩ := List.exists_cons_of_ne_nil (Text.decimal_ne_nil n)
    have hdigit : Text.isDigit c = true :=
      Text.isDigit_of_mem_decimal (hdecimal ▸ List.mem_cons_self)
    refine ⟨c, tail, hdecimal, isSpace_of_isDigit hdigit, ?_⟩
    rintro rfl
    exact absurd hdigit (by decide)
  | string text => exact ⟨'"', _, rfl, by decide, by decide⟩
  | @array elements _ => cases elements <;> exact ⟨'[', _, rfl, by decide, by decide⟩
  | @object members _ _ => cases members <;> exact ⟨'\x7b', _, rfl, by decide, by decide⟩

/-- Fuel for the text of a value is never none, for the text is not empty. -/
theorem exists_fuel (h : value.IsPlain) (hfuel : (print value).length ≤ fuel) :
    ∃ less, fuel = less + 1 := by
  obtain ⟨c, tail, hprint, _⟩ := exists_print_cons h
  rw [hprint, List.length_cons] at hfuel
  exact Nat.exists_eq_add_one.2 (Nat.lt_of_lt_of_le (Nat.succ_pos _) hfuel)

theorem isAfterValue_printElements (elements : List Json) (rest : List Char) :
    IsAfterValue (printElements elements ++ rest) := by
  cases elements <;> simp [IsAfterValue, printElements]

theorem isAfterValue_printMembers (members : List (Option String × Json)) (rest : List Char) :
    IsAfterValue (printMembers members ++ rest) := by
  rcases members with _ | ⟨⟨_, _⟩, _⟩ <;> simp [IsAfterValue, printMembers]

/-- A printed number is read as itself. -/
theorem readValue_decimal (n fuel : ℕ) (hrest : IsAfterValue rest) :
    readValue (fuel + 1) (Text.decimal n ++ rest) = some (.natural n, rest) := by
  obtain ⟨c, tail, hdecimal⟩ := List.exists_cons_of_ne_nil (Text.decimal_ne_nil n)
  have hdigit : Text.isDigit c = true :=
    Text.isDigit_of_mem_decimal (hdecimal ▸ List.mem_cons_self)
  rw [← readNumber_decimal n hrest, hdecimal]
  exact readValue_of_isDigit hdigit fuel _

/-- A printed text is read as itself. -/
theorem readValue_string (text : String) (fuel : ℕ) (rest : List Char) :
    readValue (fuel + 1) (printString text ++ rest) = some (.string text, rest) := by
  rw [printString, List.append_assoc, List.cons_append, readValue,
    skipSpace_cons (by decide)]
  simp only [List.cons_append, List.nil_append, readString_printed]
  rfl

/-- An array is read element by element. -/
theorem readValue_array {first : Json} {others : List Json} (hfirst : first.IsPlain)
    (hread : readValue fuel (print first ++ (printElements others ++ rest)) =
      some (first, printElements others ++ rest))
    (hothers : readElements fuel (printElements others ++ rest) = some (others, rest)) :
    readValue (fuel + 1) ('[' :: (print first ++ (printElements others ++ rest))) =
      some (.array (first :: others), rest) := by
  obtain ⟨c, tail, hprint, hspace, hbracket⟩ := exists_print_cons hfirst
  rw [readValue_succ, skipSpace_cons (by decide)]
  simp only
  rw [hprint, List.cons_append, skipSpace_cons hspace, ← List.cons_append, ← hprint, hread]
  split
  · next heq =>
    rw [hprint] at heq
    exact absurd (List.cons.inj heq).1 hbracket
  · rw [Option.bind_eq_bind, Option.bind_some, hothers]
    rfl

/-- A member is read as itself if its value is. -/
theorem readMember_print (name : String)
    (h : readValue fuel (print value ++ rest) = some (value, rest)) :
    readMember (fuel + 1) (printString name ++ ':' :: (print value ++ rest)) =
      some ((some name, value), rest) := by
  rw [printString, List.append_assoc, List.cons_append, readMember, skipSpace_cons (by decide)]
  simp only [List.cons_append, List.nil_append, readString_printed, Option.bind_eq_bind,
    Option.bind_some]
  rw [skipSpace_cons (by decide)]
  simp only [h, Option.bind_some]
  rfl

/-- An object is read member by member. -/
theorem readValue_object {name : String} {others : List (Option String × Json)}
    (hread : readValue fuel (print value ++ (printMembers others ++ rest)) =
      some (value, printMembers others ++ rest))
    (hothers : readMembers (fuel + 1) (printMembers others ++ rest) = some (others, rest)) :
    readValue (fuel + 2)
        ('\x7b' :: (printString name ++ ':' :: (print value ++ (printMembers others ++ rest)))) =
      some (.object ((some name, value) :: others), rest) := by
  have hmember := readMember_print name hread
  have hquote : ∃ tail, printString name ++ ':' :: (print value ++ (printMembers others ++ rest)) =
      '"' :: tail := ⟨_, rfl⟩
  obtain ⟨tail, htail⟩ := hquote
  rw [readValue_succ, skipSpace_cons (by decide)]
  simp only
  rw [htail, skipSpace_cons (by decide), ← htail, hmember]
  split
  · next heq =>
    rw [htail] at heq
    exact absurd (List.cons.inj heq).1 (by decide)
  · rw [Option.bind_eq_bind, Option.bind_some, hothers]
    rfl

mutual

/-- The text of a value is read as the value, up to what comes after it. -/
theorem readValue_print : ∀ {value : Json}, value.IsPlain → ∀ {fuel : ℕ} {rest : List Char},
    (print value).length ≤ fuel → IsAfterValue rest →
    readValue fuel (print value ++ rest) = some (value, rest)
  | .null, h, fuel, rest, hfuel, _ => by
    obtain ⟨fuel, rfl⟩ := exists_fuel h hfuel
    rfl
  | .bool value, h, fuel, rest, hfuel, _ => by
    obtain ⟨fuel, rfl⟩ := exists_fuel h hfuel
    cases value <;> rfl
  | .natural n, h, fuel, rest, hfuel, hrest => by
    obtain ⟨fuel, rfl⟩ := exists_fuel h hfuel
    exact readValue_decimal n fuel hrest
  | .string text, h, fuel, rest, hfuel, _ => by
    obtain ⟨fuel, rfl⟩ := exists_fuel h hfuel
    exact readValue_string text fuel rest
  | .array [], h, fuel, rest, hfuel, _ => by
    obtain ⟨fuel, rfl⟩ := exists_fuel h hfuel
    rfl
  | .array (first :: others), .array h, fuel, rest, hfuel, _ => by
    obtain ⟨hfirst, hothers⟩ := List.forall_mem_cons.1 h
    rw [print] at hfuel ⊢
    simp only [List.length_cons, List.length_append] at hfuel
    obtain ⟨fuel, rfl⟩ := Nat.exists_eq_add_one.2 (by omega : 0 < fuel)
    rw [List.append_assoc, List.cons_append]
    exact readValue_array hfirst
      (readValue_print hfirst (by omega) (isAfterValue_printElements others rest))
      (readElements_print hothers (by omega))
  | .object [], h, fuel, rest, hfuel, _ => by
    obtain ⟨fuel, rfl⟩ := exists_fuel h hfuel
    rfl
  | .object ((none, value) :: others), .object hnames _, fuel, rest, hfuel, _ => by
    cases hnames _ List.mem_cons_self
  | .object ((some name, value) :: others), .object hnames hvalues, fuel, rest, hfuel, _ => by
    obtain ⟨hvalue, hothers⟩ : value.IsPlain ∧ ∀ member ∈ others, member.2.IsPlain :=
      List.forall_mem_cons.1 hvalues
    rw [print, printName] at hfuel ⊢
    simp only [List.length_cons, List.length_append] at hfuel
    obtain ⟨fuel, rfl⟩ := Nat.exists_eq_add_of_le' (by omega : 2 ≤ fuel)
    simp only [List.cons_append, List.append_assoc]
    exact readValue_object
      (readValue_print hvalue (by omega) (isAfterValue_printMembers others rest))
      (readMembers_print (List.forall_mem_cons.1 hnames).2 hothers (by omega))

/-- The text of the other elements is read as them. -/
theorem readElements_print : ∀ {elements : List Json}, (∀ value ∈ elements, value.IsPlain) →
    ∀ {fuel : ℕ} {rest : List Char}, (printElements elements).length ≤ fuel →
    readElements fuel (printElements elements ++ rest) = some (elements, rest)
  | [], _, fuel, rest, hfuel => by
    obtain ⟨fuel, rfl⟩ := Nat.exists_eq_add_one.2 (Nat.lt_of_lt_of_le (by decide : 0 < 1) hfuel)
    rfl
  | value :: others, h, fuel, rest, hfuel => by
    obtain ⟨hvalue, hothers⟩ := List.forall_mem_cons.1 h
    rw [printElements] at hfuel ⊢
    simp only [List.length_cons, List.length_append] at hfuel
    obtain ⟨fuel, rfl⟩ := Nat.exists_eq_add_one.2 (by omega : 0 < fuel)
    have hread := readValue_print hvalue (by omega : (print value).length ≤ fuel)
      (isAfterValue_printElements others rest)
    have hrest : readElements fuel (printElements others ++ rest) = some (others, rest) :=
      readElements_print hothers (by omega)
    simp only [List.cons_append, List.append_assoc]
    rw [readElements, skipSpace_cons (by decide)]
    simp only [hread, hrest, Option.bind_eq_bind, Option.bind_some]
    rfl

/-- The text of the other members is read as them. -/
theorem readMembers_print : ∀ {members : List (Option String × Json)},
    (∀ member ∈ members, member.1.isSome) → (∀ member ∈ members, member.2.IsPlain) →
    ∀ {fuel : ℕ} {rest : List Char}, (printMembers members).length ≤ fuel →
    readMembers fuel (printMembers members ++ rest) = some (members, rest)
  | [], _, _, fuel, rest, hfuel => by
    obtain ⟨fuel, rfl⟩ := Nat.exists_eq_add_one.2 (Nat.lt_of_lt_of_le (by decide : 0 < 1) hfuel)
    rfl
  | (none, value) :: others, hnames, _, fuel, rest, hfuel => by
    cases hnames _ List.mem_cons_self
  | (some name, value) :: others, hnames, hvalues, fuel, rest, hfuel => by
    obtain ⟨hvalue, hothers⟩ : value.IsPlain ∧ ∀ member ∈ others, member.2.IsPlain :=
      List.forall_mem_cons.1 hvalues
    rw [printMembers, printName] at hfuel ⊢
    simp only [List.length_cons, List.length_append] at hfuel
    obtain ⟨fuel, rfl⟩ := Nat.exists_eq_add_of_le' (by omega : 2 ≤ fuel)
    have hread := readMember_print name (readValue_print hvalue
      (by omega : (print value).length ≤ fuel) (isAfterValue_printMembers others rest))
    have hrest : readMembers (fuel + 1) (printMembers others ++ rest) = some (others, rest) :=
      readMembers_print (List.forall_mem_cons.1 hnames).2 hothers (by omega)
    simp only [List.cons_append, List.append_assoc]
    rw [readMembers, skipSpace_cons (by decide)]
    simp only [hread, hrest, Option.bind_eq_bind, Option.bind_some]
    rfl

end

/-- The text of a plain value gives it back. -/
theorem parse?_render (h : value.IsPlain) : parse? (render value) = some value := by
  have hread : readValue (2 * (print value).length + 2) (print value) = some (value, []) := by
    have hall := readValue_print h (by omega : (print value).length ≤ 2 * (print value).length + 2)
      (show IsAfterValue [] by simp [IsAfterValue])
    rwa [List.append_nil] at hall
  rw [parse?, render, String.toList_ofList]
  simp only [hread]
  rfl

end StepRunner.Json
