import Dialogue.Text.Combining
import Dialogue.Text.Unprintable

/-! # Quoted texts

    A text between double quotes, as logs and failure reports show it. A quote
    and a backslash get a backslash in front; tabulators, carriage returns, line
    feeds and nulls have a letter of their own; combining and unprintable
    characters are written as their code point in hexadecimal digits.
-/

namespace Dialogue.Text

/-- The code point of a character, in the fewest lower-case hexadecimal digits. -/
def hexadecimal (c : Char) : Text := Nat.toDigits 16 c.toNat

/-- A character as it is written between quotes. -/
def quoteChar (c : Char) : Text :=
  match c with
  | '\x00' => ['\\', '0']
  | '\t' => ['\\', 't']
  | '\n' => ['\\', 'n']
  | '\r' => ['\\', 'r']
  | '"' => ['\\', '"']
  | '\\' => ['\\', '\\']
  | c =>
    if isCombining c || isUnprintable c then
      ['\\', 'u', '{'] ++ hexadecimal c ++ ['}']
    else [c]

/-- The text between double quotes. -/
def quoted (t : Text) : Text := '"' :: t.flatMap quoteChar ++ ['"']

end Dialogue.Text
