namespace StepRunner.Text

/-- The text with the letters `A` to `Z` in lower case. -/
def lowerAscii (text : String) : String := text.map Char.toLower

/-- Equality of texts up to the case of the letters `A` to `Z`. -/
def equalIgnoringCase (a b : String) : Bool := lowerAscii a == lowerAscii b

end StepRunner.Text
