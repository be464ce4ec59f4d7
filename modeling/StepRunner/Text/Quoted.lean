import StepRunner.Text.Hexadecimal
import StepRunner.Text.Unprintable

namespace StepRunner.Text

/-- A character inside double quotes: the quote, the backslash and the characters without a
    picture of their own are escaped. -/
def quotedChar (c : Char) : List Char :=
  match c with
  | '\x00' => ['\\', '0']
  | '\t' => ['\\', 't']
  | '\n' => ['\\', 'n']
  | '\r' => ['\\', 'r']
  | '"' => ['\\', '"']
  | '\\' => ['\\', '\\']
  | c =>
    if isUnprintable c then ['\\', 'u', '\x7b'] ++ hexadecimal c.toNat ++ ['\x7d'] else [c]

/-- A text in double quotes, with escapes. -/
def quoted (text : String) : String :=
  String.ofList ('"' :: text.toList.flatMap quotedChar ++ ['"'])

/-- A path in double quotes, with escapes. Single quotes are escaped too. -/
def quotedPath (path : String) : String :=
  String.ofList
    ('"' :: path.toList.flatMap (fun c => if c = '\'' then ['\\', c] else quotedChar c) ++ ['"'])

/-- Texts in double quotes, separated by commas, in square brackets. -/
def quotedList (texts : List String) : String :=
  "[" ++ String.intercalate ", " (texts.map quoted) ++ "]"

end StepRunner.Text
