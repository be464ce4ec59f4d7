namespace StepRunner.Text

/-- The octets of a text in UTF-8. -/
def encodeUtf8 (text : List Char) : List UInt8 :=
  text.flatMap String.utf8EncodeChar

/-- The number of octets of a text in UTF-8. -/
def utf8Length : List Char → Nat
  | [] => 0
  | c :: rest => c.utf8Size + utf8Length rest

theorem utf8Length_append (first second : List Char) :
    utf8Length (first ++ second) = utf8Length first + utf8Length second := by
  induction first with
  | nil => simp [utf8Length]
  | cons c rest ih => simp [utf8Length, ih, Nat.add_assoc]

private def isTail (b : UInt8) : Bool := 0x80 ≤ b && b ≤ 0xBF

/-- How many further octets follow the first octet of a character, and the least and greatest
    value of the first of them. -/
private def following (first : UInt8) : Option (Nat × UInt8 × UInt8) :=
  if 0xC2 ≤ first && first ≤ 0xDF then some (1, 0x80, 0xBF)
  else if first = 0xE0 then some (2, 0xA0, 0xBF)
  else if first = 0xED then some (2, 0x80, 0x9F)
  else if 0xE1 ≤ first && first ≤ 0xEF then some (2, 0x80, 0xBF)
  else if first = 0xF0 then some (3, 0x90, 0xBF)
  else if 0xF1 ≤ first && first ≤ 0xF3 then some (3, 0x80, 0xBF)
  else if first = 0xF4 then some (3, 0x80, 0x8F)
  else none

/-- The bits of a character's number that the first octet of `count + 1` carries. -/
private def leadingBits (count : Nat) (first : UInt8) : Nat :=
  match count with
  | 1 => first.toNat % 32
  | 2 => first.toNat % 16
  | _ => first.toNat % 8

/-- Splits the first character off a list of octets. The octets of a character that breaks off are
    taken together, up to the one that breaks it, and give `none`. -/
def takeUtf8Char (first : UInt8) (rest : List UInt8) : Option Char × List UInt8 :=
  if first < 0x80 then (some (Char.ofNat first.toNat), rest)
  else
    match following first with
    | none => (none, rest)
    | some (count, low, high) =>
      match rest with
      | [] => (none, [])
      | second :: others =>
        if second < low || high < second then (none, rest)
        else
          let tails := (others.take (count - 1)).takeWhile isTail
          let after := others.drop tails.length
          if tails.length = count - 1 then
            let number := (second :: tails).foldl (fun n b => n * 64 + b.toNat % 64)
              (leadingBits count first)
            (some (Char.ofNat number), after)
          else (none, after)

theorem takeUtf8Char_length_le (first : UInt8) (rest : List UInt8) :
    (takeUtf8Char first rest).2.length ≤ rest.length := by
  simp only [takeUtf8Char]
  split
  · exact Nat.le_refl _
  split
  · exact Nat.le_refl _
  split
  · exact Nat.le_refl _
  split
  · exact Nat.le_refl _
  split <;> simp <;> omega

/-- The text that octets stand for, with U+FFFD for each part that is no UTF-8. -/
def decodeUtf8Lossy (octets : List UInt8) : List Char :=
  match octets with
  | [] => []
  | first :: rest =>
    (takeUtf8Char first rest).1.getD '\uFFFD' :: decodeUtf8Lossy (takeUtf8Char first rest).2
termination_by octets.length
decreasing_by
  have := takeUtf8Char_length_le first rest
  simp only [List.length_cons]
  omega

/-- The text that octets stand for, if all of them are UTF-8. -/
def decodeUtf8? (octets : List UInt8) : Option (List Char) :=
  match octets with
  | [] => some []
  | first :: rest =>
    match (takeUtf8Char first rest).1 with
    | none => none
    | some c => (decodeUtf8? (takeUtf8Char first rest).2).map (c :: ·)
termination_by octets.length
decreasing_by
  have := takeUtf8Char_length_le first rest
  simp only [List.length_cons]
  omega

end StepRunner.Text
