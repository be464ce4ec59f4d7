namespace StepRunner.Text

/-- The parts of a text between the occurrences of `separator`: one more than there are of them. -/
def pieces (separator : Char) : List Char → List (List Char)
  | [] => [[]]
  | c :: rest =>
    if c = separator then [] :: pieces separator rest
    else
      match pieces separator rest with
      | [] => [[c]]
      | first :: others => (c :: first) :: others

theorem pieces_ne_nil (separator : Char) (text : List Char) : pieces separator text ≠ [] := by
  cases text with
  | nil => simp [pieces]
  | cons c rest =>
    simp only [pieces]
    split
    · simp
    · split <;> simp

/-- The texts with one `separator` between neighbours. -/
def joinPieces (separator : Char) : List (List Char) → List Char
  | [] => []
  | [piece] => piece
  | piece :: others => piece ++ separator :: joinPieces separator others

theorem joinPieces_pieces (separator : Char) (text : List Char) :
    joinPieces separator (pieces separator text) = text := by
  induction text with
  | nil => rfl
  | cons c rest ih =>
    have hne := pieces_ne_nil separator rest
    simp only [pieces]
    split
    · next h =>
      cases hp : pieces separator rest with
      | nil => exact absurd hp hne
      | cons first others => rw [joinPieces, ← hp, ih, h, List.nil_append]; simp
    · cases hp : pieces separator rest with
      | nil => exact absurd hp hne
      | cons first others =>
        rw [hp] at ih
        cases others with
        | nil => simp [joinPieces] at ih ⊢; exact ih
        | cons second others => simp [joinPieces] at ih ⊢; exact ih

/-- The text before and the text after the first `separator`. -/
def splitOnce (separator : Char) : List Char → Option (List Char × List Char)
  | [] => none
  | c :: rest =>
    if c = separator then some ([], rest)
    else (splitOnce separator rest).map fun (before, after) => (c :: before, after)

/-- What follows `start` in a text that begins with it. -/
def dropStart? : (start text : List Char) → Option (List Char)
  | [], text => some text
  | _ :: _, [] => none
  | a :: start, c :: text => if a = c then dropStart? start text else none

theorem dropStart?_eq_some_iff {start text rest : List Char} :
    dropStart? start text = some rest ↔ text = start ++ rest := by
  induction start generalizing text with
  | nil => simp [dropStart?, eq_comm]
  | cons a start ih =>
    cases text with
    | nil => simp [dropStart?]
    | cons c text =>
      by_cases h : a = c
      · simp [dropStart?, h, ih]
      · simp [dropStart?, h, Ne.symm h]

/-- Whether `part` occurs in a text. -/
def occurs (part : List Char) : List Char → Bool
  | [] => part.isEmpty
  | c :: rest => part.isPrefixOf (c :: rest) || occurs part rest

/-- A line whose line feed has been taken off, without the carriage return before it. -/
private def withoutReturn (line : List Char) : List Char :=
  if line.getLast? = some '\r' then line.dropLast else line

/-- The lines of a text. Each ends with a line feed, alone or after a carriage return; the last
    one may lack it, and then a carriage return at its end belongs to it. -/
def lines (text : List Char) : List (List Char) :=
  let parts := pieces '\n' text
  let whole := parts.dropLast.map withoutReturn
  match parts.getLast? with
  | none | some [] => whole
  | some rest => whole ++ [rest]

end StepRunner.Text
