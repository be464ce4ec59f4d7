import StepRunner.Proofs.Text

namespace StepRunner.Text

variable {text rest word gap part : List Char}

theorem words_of_isBlank_append (h : ∀ c ∈ gap, isBlank c = true) (text : List Char) :
    words (gap ++ text) = words text := by
  induction gap with
  | nil => rfl
  | cons c gap ih =>
    obtain ⟨hc, hgap⟩ := List.forall_mem_cons.1 h
    rw [List.cons_append, words, if_pos hc, ih hgap]

/-- A word ends before the first blank. -/
theorem words_word_append (hne : word ≠ []) (hword : ∀ c ∈ word, isBlank c = false)
    (hrest : ∀ c, rest.head? = some c → isBlank c = true) :
    words (word ++ rest) = word :: words rest := by
  obtain ⟨c, more, rfl⟩ := List.exists_cons_of_ne_nil hne
  obtain ⟨hc, hmore⟩ := List.forall_mem_cons.1 hword
  have hpos : ∀ d ∈ more, (!isBlank d) = true := fun d hd => by simp [hmore d hd]
  have hstop : rest.takeWhile (!isBlank ·) = [] ∧ rest.dropWhile (!isBlank ·) = rest := by
    cases rest with
    | nil => exact ⟨rfl, rfl⟩
    | cons d rest => simp [hrest d rfl]
  rw [List.cons_append, words, if_neg (by simp [hc]), List.takeWhile_append_of_pos hpos,
    List.dropWhile_append_of_pos hpos, hstop.1, hstop.2, List.append_nil]

/-- What begins with a character that is not blank is a word, and then nothing or a blank. -/
private theorem exists_word {c : Char} (hc : isBlank c ≠ true) (rest : List Char) :
    (∀ d ∈ c :: rest.takeWhile (!isBlank ·), isBlank d = false) ∧
      c :: rest = (c :: rest.takeWhile (!isBlank ·)) ++ rest.dropWhile (!isBlank ·) ∧
      ∀ d, (rest.dropWhile (!isBlank ·)).head? = some d → isBlank d = true := by
  refine ⟨List.forall_mem_cons.2 ⟨by simpa using hc, fun d hd => ?_⟩, ?_, fun d hd => ?_⟩
  · simpa using List.mem_takeWhile_imp hd
  · rw [List.cons_append, List.takeWhile_append_dropWhile]
  · have hstop := List.head?_dropWhile_not (!isBlank ·) rest
    rw [hd] at hstop
    simpa using hstop

theorem words_append_of_isBlank (h : ∀ c ∈ gap, isBlank c = true) :
    words (text ++ gap) = words text := by
  fun_induction words text with
  | case1 => simpa [words] using words_of_isBlank_append h []
  | case2 c rest hc ih => rw [List.cons_append, words, if_pos hc, ih]
  | case3 c rest hc ih =>
    obtain ⟨hword, hsplit, hstop⟩ := exists_word hc rest
    rw [hsplit, List.append_assoc, words_word_append (List.cons_ne_nil _ _) hword, ih]
    intro d hd
    cases hafter : rest.dropWhile (!isBlank ·) with
    | nil =>
      rw [hafter] at hd
      exact h d (List.mem_of_head? hd)
    | cons e after =>
      rw [hafter] at hd hstop
      exact hstop d hd

/-- `Splits text found` says that a text is some words between blanks: each of them has a character
    and no blank, and a blank or nothing comes after it. -/
inductive Splits : List Char → List (List Char) → Prop
  | blanks {gap : List Char} (hgap : ∀ c ∈ gap, isBlank c = true) : Splits gap []
  | word {gap word rest : List Char} {found : List (List Char)}
      (hgap : ∀ c ∈ gap, isBlank c = true) (hne : word ≠ [])
      (hword : ∀ c ∈ word, isBlank c = false)
      (hrest : ∀ c, rest.head? = some c → isBlank c = true) (h : Splits rest found) :
      Splits (gap ++ (word ++ rest)) (word :: found)

/-- A blank in front of a text is no part of its words. -/
theorem Splits.cons {c : Char} {found : List (List Char)} (hc : isBlank c = true)
    (h : Splits text found) : Splits (c :: text) found := by
  cases h with
  | blanks hgap => exact .blanks (List.forall_mem_cons.2 ⟨hc, hgap⟩)
  | word hgap hne hword hrest h =>
    rw [← List.cons_append]
    exact .word (List.forall_mem_cons.2 ⟨hc, hgap⟩) hne hword hrest h

/-- The words of a text are the ones, and in the order, that it is split into by its blanks. -/
theorem words_eq_iff {found : List (List Char)} : words text = found ↔ Splits text found := by
  constructor
  · rintro rfl
    fun_induction words text with
    | case1 => exact .blanks (List.forall_mem_nil _)
    | case2 c rest hc ih => exact ih.cons hc
    | case3 c rest hc ih =>
      obtain ⟨hword, hsplit, hstop⟩ := exists_word hc rest
      rw [hsplit]
      exact .word (List.forall_mem_nil _) (List.cons_ne_nil _ _) hword hstop ih
  · intro h
    induction h with
    | @blanks gap hgap => rw [← List.append_nil gap, words_of_isBlank_append hgap, words]
    | word hgap hne hword hrest _ ih =>
      rw [words_of_isBlank_append hgap, words_word_append hne hword hrest, ih]

/-- The blanks at the ends of a text make no difference to its words. -/
theorem words_trim (text : List Char) : words (trim isBlank text) = words text := by
  obtain ⟨after, htext, hafter⟩ := exists_trimEnd_append isBlank (trimStart isBlank text)
  have hstart : text.takeWhile isBlank ++ trimStart isBlank text = text :=
    List.takeWhile_append_dropWhile
  have hbefore : ∀ c ∈ text.takeWhile isBlank, isBlank c = true := fun c hc =>
    List.mem_takeWhile_imp hc
  calc words (trim isBlank text)
    _ = words (trimEnd isBlank (trimStart isBlank text) ++ after) :=
      (words_append_of_isBlank hafter).symm
    _ = words (trimStart isBlank text) := by rw [htext]
    _ = words (text.takeWhile isBlank ++ trimStart isBlank text) :=
      (words_of_isBlank_append hbefore _).symm
    _ = words text := by rw [hstart]

/-- Words are parts of a text, and no blanks are in them. -/
theorem of_mem_words (h : word ∈ words text) :
    (∀ c ∈ word, isBlank c = false) ∧ word <:+: text := by
  fun_induction words text with
  | case1 => cases h
  | case2 c rest hc ih =>
    obtain ⟨hword, hpart⟩ := ih h
    exact ⟨hword, hpart.trans (List.suffix_cons c rest).isInfix⟩
  | case3 c rest hc ih =>
    obtain ⟨hfirst, hsplit, _⟩ := exists_word hc rest
    rcases List.mem_cons.1 h with rfl | h
    · exact ⟨hfirst, hsplit ▸ (List.prefix_append _ _).isInfix⟩
    · obtain ⟨hword, hpart⟩ := ih h
      exact ⟨hword, hpart.trans (hsplit ▸ (List.suffix_append _ _).isInfix)⟩

theorem occurs_iff : occurs part text = true ↔ part <:+: text := by
  induction text with
  | nil => simp [occurs]
  | cons c rest ih =>
    rw [occurs, Bool.or_eq_true, ih, List.isPrefixOf_iff_prefix, List.infix_cons_iff]

end StepRunner.Text
