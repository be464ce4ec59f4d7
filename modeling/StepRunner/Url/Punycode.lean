import StepRunner.Text.Decimal

namespace StepRunner.Url.Punycode

/-- The character of a digit below 36: letters first. -/
def digitChar (d : Nat) : Char := if d < 26 then Char.ofNat (97 + d) else Char.ofNat (22 + d)

/-- The value of a digit. -/
def digitValue? (c : Char) : Option Nat :=
  if 'a' ≤ c ∧ c ≤ 'z' then some (c.toNat - 97)
  else if 'A' ≤ c ∧ c ≤ 'Z' then some (c.toNat - 65)
  else if '0' ≤ c ∧ c ≤ '9' then some (c.toNat - 22)
  else none

/-- The threshold of the digit at position `k`. -/
def threshold (k bias : Nat) : Nat :=
  if k ≤ bias then 1 else if bias + 26 ≤ k then 26 else k - bias

theorem threshold_pos (k bias : Nat) : 1 ≤ threshold k bias := by
  unfold threshold
  split
  · exact Nat.le_refl 1
  · split <;> omega

/-- Divides until the rest is small, and counts. -/
def shrink (delta k : Nat) : Nat × Nat :=
  if 455 < delta then shrink (delta / 35) (k + 36) else (delta, k)
termination_by delta
decreasing_by omega

/-- The bias after a number. -/
def adapt (delta points : Nat) (first : Bool) : Nat :=
  let delta := if first then delta / 700 else delta / 2
  let (delta, k) := shrink (delta + delta / points) 0
  k + 36 * delta / (delta + 38)

/-- The digits of a number. -/
def digitsOf (bias k q : Nat) : List Char :=
  if q < threshold k bias then [digitChar q]
  else
    digitChar (threshold k bias + (q - threshold k bias) % (36 - threshold k bias)) ::
      digitsOf bias (k + 36) ((q - threshold k bias) / (36 - threshold k bias))
termination_by q
decreasing_by
  have hpos := threshold_pos k bias
  have hle := Nat.div_le_self (q - threshold k bias) (36 - threshold k bias)
  exact Nat.lt_of_le_of_lt hle (by omega)

/-- What has been written, and what the next number depends on. -/
structure Progress where
  written : List Char
  delta : Nat
  bias : Nat
  handled : Nat

/-- Writes all places of one character, the least that is not written yet. -/
def writePoint (basic point : Nat) (label : List Char) (p : Progress) : Progress :=
  label.foldl (fun p c =>
    if c.toNat < point then { p with delta := p.delta + 1 }
    else if c.toNat = point then
      { written := p.written ++ digitsOf p.bias 36 p.delta
        delta := 0
        bias := adapt p.delta (p.handled + 1) (p.handled = basic)
        handled := p.handled + 1 }
    else p) p

/-- A label in ASCII, without its mark. -/
def encode (label : List Char) : List Char :=
  let basic := label.filter fun c => c.toNat < 128
  let points := ((label.map Char.toNat).filter (128 ≤ ·)).eraseDups.mergeSort
  let start : Progress := ⟨if basic = [] then [] else basic ++ ['-'], 0, 72, basic.length⟩
  let (done, _) := points.foldl (fun (p, last) point =>
    let p := { p with delta := p.delta + (point - last) * (p.handled + 1) }
    let p := writePoint basic.length point label p
    ({ p with delta := p.delta + 1 }, point + 1)) (start, 128)
  done.written

/-- Reads one number: its value and the rest. -/
def number? (bias : Nat) : (k weight value : Nat) → List Char → Option (Nat × List Char)
  | _, _, _, [] => none
  | k, weight, value, c :: rest => do
    let digit ← digitValue? c
    let value := value + digit * weight
    let t := threshold k bias
    if Nat.pow 2 32 ≤ value then none
    else if digit < t then some (value, rest)
    else number? bias (k + 36) (weight * (36 - t)) value rest

/-- Reads the numbers of a label and puts in their characters. -/
def insertAll : (fuel : Nat) → (point index bias : Nat) → (first : Bool) → (label : List Char) →
    List Char → Option (List Char)
  | 0, _, _, _, _, _, _ => none
  | _ + 1, _, _, _, _, label, [] => some label
  | fuel + 1, point, index, bias, first, label, digits => do
    let (delta, rest) ← number? bias 36 1 0 digits
    let size := label.length + 1
    let place := index + delta
    let point := point + place / size
    let position := place % size
    if h : point.isValidChar then
      let c := Char.ofNatAux point h
      let label := label.take position ++ c :: label.drop position
      insertAll fuel point (position + 1) (adapt delta size first) false label rest
    else none

/-- The label that a text in ASCII without its mark stands for. -/
def decode? (text : List Char) : Option (List Char) :=
  let after := (text.reverse.takeWhile (· ≠ '-')).reverse
  let basic := (text.take (text.length - after.length)).dropLast
  insertAll (text.length + 1) 128 0 72 true basic after

end StepRunner.Url.Punycode
