namespace StepRunner.Shell

/-- What one place of a pattern matches. -/
inductive PatternItem where
  | anything
  | anyChar
  | char (c : Char)
  | oneOf (negated : Bool) (ranges : List (Char × Char))
deriving DecidableEq, Repr

/-- A character of a word, and whether it is quoted. -/
abbrev Marked := Char × Bool

/-- The ranges up to a closing bracket, and what follows it. The first bracket is an element. -/
def bracketRanges : (first : Bool) → List Marked → Option (List (Char × Char) × List Marked)
  | _, [] => none
  | true, (']', false) :: rest =>
    (bracketRanges false rest).map fun (ranges, rest) => ((']', ']') :: ranges, rest)
  | false, (']', false) :: rest => some ([], rest)
  | _, (low, _) :: ('-', false) :: (high, _) :: rest =>
    if high = ']' then
      (bracketRanges false ((high, false) :: rest)).map fun (ranges, rest) =>
        ((low, low) :: ('-', '-') :: ranges, rest)
    else
      (bracketRanges false rest).map fun (ranges, rest) => ((low, high) :: ranges, rest)
  | _, (c, _) :: rest =>
    (bracketRanges false rest).map fun (ranges, rest) => ((c, c) :: ranges, rest)
termination_by _ text => text.length

/-- The pattern that a text is; what is quoted stands for itself. -/
def patternOf : (fuel : Nat) → List Marked → List PatternItem
  | 0, _ => []
  | _ + 1, [] => []
  | fuel + 1, ('*', false) :: rest => .anything :: patternOf fuel rest
  | fuel + 1, ('?', false) :: rest => .anyChar :: patternOf fuel rest
  | fuel + 1, ('[', false) :: rest =>
    let (negated, inside) := match rest with
      | ('!', false) :: inside => (true, inside)
      | _ => (false, rest)
    match bracketRanges true inside with
    | some (ranges, rest) => .oneOf negated ranges :: patternOf fuel rest
    | none => .char '[' :: patternOf fuel rest
  | fuel + 1, (c, _) :: rest => .char c :: patternOf fuel rest

/-- Whether a pattern matches the whole of a text. -/
def isMatch : List PatternItem → List Char → Bool
  | [], text => text.isEmpty
  | .anything :: pattern, [] => isMatch pattern []
  | .anything :: pattern, c :: rest =>
    isMatch pattern (c :: rest) || isMatch (.anything :: pattern) rest
  | .anyChar :: pattern, _ :: rest => isMatch pattern rest
  | .char c :: pattern, d :: rest => c = d && isMatch pattern rest
  | .oneOf negated ranges :: pattern, d :: rest =>
    (ranges.any fun (low, high) => low ≤ d && d ≤ high) != negated && isMatch pattern rest
  | _ :: _, [] => false
termination_by pattern text => (pattern.length, text.length)

/-- Whether a text has characters that can make it match more than itself. -/
def isPattern (text : List Marked) : Bool :=
  text.any fun (c, quoted) => !quoted && "*?[".toList.contains c

/-- The pattern of a text. -/
def toPattern (text : List Marked) : List PatternItem := patternOf (text.length + 1) text

end StepRunner.Shell
