import Mathlib.Data.List.Basic
import Mathlib.Data.List.TakeWhile
import StepRunner.Text.Blank
import StepRunner.Text.Pieces

namespace StepRunner.Text

@[simp] theorem pieces_cons_self (separator : Char) (rest : List Char) :
    pieces separator (separator :: rest) = [] :: pieces separator rest := if_pos rfl

/-- A character that is no separator belongs to the first piece. -/
theorem pieces_cons_of_ne {separator c : Char} (h : c ≠ separator) (rest : List Char) :
    ∃ first others, pieces separator rest = first :: others ∧
      pieces separator (c :: rest) = (c :: first) :: others := by
  obtain ⟨first, others, hpieces⟩ := List.exists_cons_of_ne_nil (pieces_ne_nil separator rest)
  refine ⟨first, others, hpieces, ?_⟩
  rw [pieces, if_neg h, hpieces]

/-- A separator inside a text divides its pieces. -/
theorem pieces_append (separator : Char) (before after : List Char) :
    pieces separator (before ++ separator :: after) =
      pieces separator before ++ pieces separator after := by
  induction before with
  | nil => exact pieces_cons_self separator after
  | cons c rest ih =>
    by_cases hc : c = separator
    · rw [hc, List.cons_append, pieces_cons_self, pieces_cons_self, ih, List.cons_append]
    · obtain ⟨first, others, hrest, hpieces⟩ := pieces_cons_of_ne hc rest
      obtain ⟨first', others', hrest', hpieces'⟩ :=
        pieces_cons_of_ne hc (rest ++ separator :: after)
      rw [ih, hrest, List.cons_append, List.cons.injEq] at hrest'
      rw [List.cons_append, hpieces', hpieces, List.cons_append, hrest'.1, hrest'.2]

/-- The pieces have no separator, and their characters are those of the text. -/
theorem of_mem_pieces {separator c : Char} {text piece : List Char}
    (h : piece ∈ pieces separator text) (hc : c ∈ piece) : c ≠ separator ∧ c ∈ text := by
  induction text generalizing piece with
  | nil =>
    rw [pieces, List.mem_singleton] at h
    rw [h] at hc
    cases hc
  | cons first rest ih =>
    have hmore {piece : List Char} (h : piece ∈ pieces separator rest) (hc : c ∈ piece) :
        c ≠ separator ∧ c ∈ first :: rest :=
      (ih h hc).imp_right (List.mem_cons_of_mem _)
    by_cases hfirst : first = separator
    · rw [hfirst, pieces_cons_self] at h
      rcases List.mem_cons.1 h with rfl | h
      · cases hc
      · exact hmore h hc
    · obtain ⟨start, others, hrest, hpieces⟩ := pieces_cons_of_ne hfirst rest
      rw [hpieces] at h
      rw [hrest] at hmore
      rcases List.mem_cons.1 h with rfl | h
      · rcases List.mem_cons.1 hc with rfl | hc
        · exact ⟨hfirst, List.mem_cons_self⟩
        · exact hmore List.mem_cons_self hc
      · exact hmore (List.mem_cons_of_mem _ h) hc

/-- No piece contains the separator. -/
theorem not_mem_of_mem_pieces {separator : Char} {text piece : List Char}
    (h : piece ∈ pieces separator text) : separator ∉ piece :=
  fun hc => (of_mem_pieces h hc).1 rfl

theorem pieces_of_not_mem {separator : Char} {text : List Char} (h : separator ∉ text) :
    pieces separator text = [text] := by
  induction text with
  | nil => rfl
  | cons c rest ih =>
    rw [List.mem_cons, not_or] at h
    simp [pieces, Ne.symm h.1, ih h.2]

/-- The last piece is what follows the last separator. -/
theorem getLast?_pieces (separator : Char) (text : List Char) :
    (pieces separator text).getLast? = some (text.reverse.takeWhile (· ≠ separator)).reverse := by
  have hsplit := List.takeWhile_append_dropWhile (p := (· ≠ separator)) (l := text.reverse)
  have hlast : separator ∉ (text.reverse.takeWhile (· ≠ separator)).reverse := by
    rw [List.mem_reverse]
    intro hmem
    simpa using List.mem_takeWhile_imp hmem
  generalize text.reverse.takeWhile (· ≠ separator) = last at hsplit hlast ⊢
  cases hdrop : text.reverse.dropWhile (· ≠ separator) with
  | nil =>
    rw [hdrop, List.append_nil] at hsplit
    rw [← List.reverse_reverse text, ← hsplit, pieces_of_not_mem hlast]
    rfl
  | cons c before =>
    have hc : c = separator := by
      have hhead := List.head?_dropWhile_not (· ≠ separator) text.reverse
      rw [hdrop] at hhead
      simpa using hhead
    rw [hdrop, hc] at hsplit
    rw [← List.reverse_reverse text, ← hsplit, List.reverse_append, List.reverse_cons,
      List.append_assoc, List.singleton_append, pieces_append, pieces_of_not_mem hlast,
      List.getLast?_append_of_ne_nil _ (by simp)]
    rfl

/-- Texts without the separator are the pieces of what they are joined to. -/
theorem pieces_joinPieces {separator : Char} {texts : List (List Char)} (hne : texts ≠ [])
    (h : ∀ text ∈ texts, separator ∉ text) :
    pieces separator (joinPieces separator texts) = texts := by
  induction texts with
  | nil => exact absurd rfl hne
  | cons text others ih =>
    have htext := h text (by simp)
    cases others with
    | nil => simpa [joinPieces] using pieces_of_not_mem htext
    | cons second others =>
      rw [joinPieces, pieces_append, pieces_of_not_mem htext,
        ih (by simp) fun other hother => h other (List.mem_cons_of_mem _ hother)]
      · rfl
      · simp

/-- The first ones of some texts are joined to the beginning of what all of them are joined to. -/
theorem joinPieces_isPrefix (separator : Char) (before after : List (List Char)) :
    joinPieces separator before <+: joinPieces separator (before ++ after) := by
  induction before with
  | nil => simp [joinPieces]
  | cons text others ih =>
    cases others with
    | nil =>
      cases after with
      | nil => simp
      | cons next after => simp [joinPieces]
    | cons second others =>
      simp only [List.cons_append, joinPieces] at ih ⊢
      exact (List.prefix_append_right_inj _).2 (List.cons_prefix_cons.2 ⟨rfl, ih⟩)

/-- A line ends with its line feed; the carriage return before that is no part of it. -/
theorem lines_append {line : List Char} (h : '\n' ∉ line) (rest : List Char) :
    lines (line ++ '\n' :: rest) =
      (if line.getLast? = some '\r' then line.dropLast else line) :: lines rest := by
  obtain ⟨first, others, hrest⟩ := List.exists_cons_of_ne_nil (pieces_ne_nil '\n' rest)
  have hlast : (line :: first :: others).getLast? = (first :: others).getLast? := rfl
  unfold lines
  rw [pieces_append, pieces_of_not_mem h, hrest, List.singleton_append]
  dsimp only
  rw [hlast, List.dropLast_cons_cons, List.map_cons]
  split <;> rfl

theorem lines_of_not_mem {line : List Char} (h : '\n' ∉ line) :
    lines line = if line = [] then [] else [line] := by
  unfold lines
  rw [pieces_of_not_mem h]
  cases line <;> rfl

/-- A text is split at the first separator in it. -/
theorem splitOnce_eq_some_iff {separator : Char} {text before after : List Char} :
    splitOnce separator text = some (before, after) ↔
      text = before ++ separator :: after ∧ separator ∉ before := by
  induction text generalizing before with
  | nil => simp [splitOnce]
  | cons c rest ih =>
    by_cases hc : c = separator
    · rw [splitOnce, if_pos hc, hc]
      cases before <;> simp +contextual [eq_comm]
    · rw [splitOnce, if_neg hc, Option.map_eq_some_iff]
      cases before with
      | nil => simp [hc]
      | cons first before =>
        simp only [Prod.exists, Prod.mk.injEq, List.cons.injEq, List.cons_append, List.mem_cons,
          not_or]
        constructor
        · rintro ⟨found, after, hsplit, ⟨rfl, rfl⟩, rfl⟩
          obtain ⟨htext, hnot⟩ := ih.1 hsplit
          exact ⟨⟨rfl, htext⟩, Ne.symm hc, hnot⟩
        · rintro ⟨⟨rfl, htext⟩, _, hnot⟩
          exact ⟨before, after, ih.2 ⟨htext, hnot⟩, ⟨rfl, rfl⟩, rfl⟩

theorem splitOnce_eq_none_iff {separator : Char} {text : List Char} :
    splitOnce separator text = none ↔ separator ∉ text := by
  induction text with
  | nil => simp [splitOnce]
  | cons c rest ih =>
    by_cases hc : c = separator
    · simp [splitOnce, hc]
    · simp [splitOnce, hc, ih, Ne.symm hc]

theorem splitOnce_of_mem {separator : Char} {text : List Char} (h : separator ∈ text) :
    splitOnce separator text =
      some (text.takeWhile (· ≠ separator), (text.dropWhile (· ≠ separator)).drop 1) := by
  induction text with
  | nil => cases h
  | cons c rest ih =>
    by_cases hc : c = separator
    · simp [splitOnce, hc]
    · rw [splitOnce, if_neg hc, ih ((List.mem_cons.1 h).resolve_left (Ne.symm hc)), Option.map_some,
        List.takeWhile_cons_of_pos (by simpa using hc), List.dropWhile_cons_of_pos (by simpa using hc)]

variable {p : Char → Bool} {text : List Char}

/-- A text that does not end with a character to be trimmed stays as it is. -/
theorem trimEnd_eq_self (h : ∀ c, text.getLast? = some c → p c = false) :
    trimEnd p text = text := by
  unfold trimEnd
  cases hrev : text.reverse with
  | nil => simpa using hrev.symm
  | cons c rest =>
    have hlast : text.getLast? = some c := by rw [List.getLast?_eq_head?_reverse, hrev]; rfl
    rw [List.dropWhile_cons_of_neg (by simp [h c hlast]), ← hrev, List.reverse_reverse]

theorem getLast?_trimEnd {c : Char} (h : (trimEnd p text).getLast? = some c) : p c = false := by
  rw [trimEnd, List.getLast?_reverse] at h
  have hhead := List.head?_dropWhile_not p text.reverse
  rw [h] at hhead
  exact hhead

theorem trimStart_eq_self (h : ∀ c, text.head? = some c → p c = false) :
    trimStart p text = text := by
  cases text with
  | nil => rfl
  | cons c rest => rw [trimStart, List.dropWhile_cons_of_neg (by simp [h c rfl])]

theorem trim_eq_self (hstart : ∀ c, text.head? = some c → p c = false)
    (hend : ∀ c, text.getLast? = some c → p c = false) : trim p text = text := by
  rw [trim, trimStart_eq_self hstart, trimEnd_eq_self hend]

/-- What is trimmed off the end of a text are characters to be trimmed. -/
theorem exists_trimEnd_append (p : Char → Bool) (text : List Char) :
    ∃ ends, trimEnd p text ++ ends = text ∧ ∀ c ∈ ends, p c = true := by
  refine ⟨(text.reverse.takeWhile p).reverse, ?_, fun c hc => ?_⟩
  · rw [trimEnd, ← List.reverse_append, List.takeWhile_append_dropWhile, List.reverse_reverse]
  · exact List.mem_takeWhile_imp (List.mem_reverse.1 hc)

theorem trimEnd_isPrefix (p : Char → Bool) (text : List Char) : trimEnd p text <+: text :=
  let ⟨ends, heq, _⟩ := exists_trimEnd_append p text
  ⟨ends, heq⟩

/-- What is trimmed off the end of a text may reach into its first part. -/
theorem trimEnd_append (p : Char → Bool) (before after : List Char) :
    trimEnd p (before ++ after) =
      if trimEnd p after = [] then trimEnd p before else before ++ trimEnd p after := by
  simp only [trimEnd, List.reverse_append, List.dropWhile_append, List.isEmpty_iff,
    List.reverse_eq_nil_iff]
  split
  · rfl
  · rw [List.reverse_append, List.reverse_reverse]

/-- Nothing is trimmed off a first part that ends with a character that is kept. -/
theorem trimEnd_append_of_self {before : List Char} (h : trimEnd p before = before)
    (after : List Char) : trimEnd p (before ++ after) = before ++ trimEnd p after := by
  rw [trimEnd_append, h]
  split
  · next hnil => rw [hnil, List.append_nil]
  · rfl

theorem trimStart_append (p : Char → Bool) (before after : List Char) :
    trimStart p (before ++ after) =
      if trimStart p before = [] then trimStart p after else trimStart p before ++ after := by
  unfold trimStart
  by_cases hnil : before.dropWhile p = []
  · rw [if_pos hnil, List.dropWhile_append, if_pos (List.isEmpty_iff.2 hnil)]
  · rw [if_neg hnil, List.dropWhile_append, if_neg fun hempty => hnil (List.isEmpty_iff.1 hempty)]

theorem head?_trimStart {c : Char} (h : (trimStart p text).head? = some c) : p c = false := by
  have hhead := List.head?_dropWhile_not p text
  rw [trimStart] at h
  rw [h] at hhead
  exact hhead

theorem trimStart_eq_nil_iff : trimStart p text = [] ↔ ∀ c ∈ text, p c = true :=
  List.dropWhile_eq_nil_iff

theorem trimEnd_eq_nil_iff : trimEnd p text = [] ↔ ∀ c ∈ text, p c = true := by
  rw [trimEnd, List.reverse_eq_nil_iff, List.dropWhile_eq_nil_iff]
  simp only [List.mem_reverse]

/-- The end of a text is trimmed no further than to a character that is kept. -/
theorem head?_trimEnd {c : Char} (h : text.head? = some c) (hc : p c = false) :
    (trimEnd p text).head? = some c := by
  obtain ⟨ends, heq, hall⟩ := exists_trimEnd_append p text
  cases hkept : trimEnd p text with
  | nil =>
    rw [hkept, List.nil_append] at heq
    rw [hall c (List.mem_of_head? (heq ▸ h))] at hc
    cases hc
  | cons first rest =>
    rw [hkept] at heq
    rw [← heq] at h
    exact h

theorem head?_trim {c : Char} (h : (trim p text).head? = some c) : p c = false := by
  obtain ⟨rest, hrest⟩ := List.head?_eq_some_iff.1 h
  obtain ⟨more, hmore⟩ := trimEnd_isPrefix p (trimStart p text)
  have hstart : (trimStart p text).head? = some c := by
    rw [← hmore, ← trim, hrest]
    rfl
  exact head?_trimStart hstart

/-- The ends of a text may be trimmed in either order. -/
theorem trim_eq_trimStart_trimEnd (p : Char → Bool) (text : List Char) :
    trim p text = trimStart p (trimEnd p text) := by
  have hsplit : text.takeWhile p ++ trimStart p text = text := List.takeWhile_append_dropWhile
  have hall : ∀ c ∈ text.takeWhile p, p c = true := fun c hc => List.mem_takeWhile_imp hc
  have hend := trimEnd_append p (text.takeWhile p) (trimStart p text)
  rw [hsplit, trimEnd_eq_nil_iff.2 hall, ← trim] at hend
  have hself : trimStart p (trim p text) = trim p text := trimStart_eq_self fun _ => head?_trim
  rw [hend]
  split
  · next hnil => rw [hnil]; rfl
  · have hstart : trimStart p (text.takeWhile p) = [] := trimStart_eq_nil_iff.2 hall
    rw [trimStart_append, if_pos hstart, hself]

theorem getLast?_trim {c : Char} (h : (trim p text).getLast? = some c) : p c = false :=
  getLast?_trimEnd h

@[simp] theorem trim_trim (p : Char → Bool) (text : List Char) :
    trim p (trim p text) = trim p text :=
  trim_eq_self (fun _ h => head?_trim h) fun _ h => getLast?_trim h

end StepRunner.Text
