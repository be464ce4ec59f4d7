import StepRunner.Text.Utf8

namespace StepRunner.Shell

/-- Octets as the shell reads them: a character for each. -/
def ofOctets (octets : List UInt8) : List Char := octets.map fun b => Char.ofNat b.toNat

/-- The octets of a text of the shell. -/
def toOctets (text : List Char) : List UInt8 := text.map fun c => c.toNat.toUInt8

/-- A text as the shell reads it. -/
def ofText (text : String) : List Char := ofOctets (Text.encodeUtf8 text.toList)

/-- What a text of the shell says. -/
def toText (text : List Char) : String := String.ofList (Text.decodeUtf8Lossy (toOctets text))

end StepRunner.Shell
