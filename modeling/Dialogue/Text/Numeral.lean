import Dialogue.Text.Basic

/-! # Reading an index

    An index is written with ASCII digits, leading zeros allowed, and may have
    one `+` in front. It has to fit a word of 64 bits. Reading goes from the
    left and stops at the first character that decides the answer.
-/

namespace Dialogue.Text

/-- Why a text is no index. -/
inductive NumeralError
  | empty
  | invalidDigit
  | overflow
  deriving DecidableEq

/-- The largest index, `2 ^ 64 - 1`. -/
def largestIndex : Nat := 18446744073709551615

/-- The value of an ASCII digit. -/
def digitValue? (c : Char) : Option Nat :=
  if c.isDigit then some (c.toNat - '0'.toNat) else none

/-- Reads on behind digits that are worth `value`. -/
def readDigits (value : Nat) : Text → Except NumeralError Nat
  | [] => .ok value
  | c :: rest =>
    match digitValue? c with
    | none => .error .invalidDigit
    | some d =>
      if 10 * value + d ≤ largestIndex then readDigits (10 * value + d) rest
      else .error .overflow

/-- Reads an index. A lone `+` is no number. -/
def readIndex : Text → Except NumeralError Nat
  | [] => .error .empty
  | '+' :: c :: rest => readDigits 0 (c :: rest)
  | t => readDigits 0 t

end Dialogue.Text
