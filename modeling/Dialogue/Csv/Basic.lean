import Dialogue.Text.Basic

/-! # Comma-separated values

    A table is a sequence of records and a record a sequence of fields, which
    commas separate. The fields are bytes, and four bytes have a meaning between
    them.
-/

namespace Dialogue.Csv

/-- A sequence of bytes. -/
abbrev Bytes := List UInt8

def comma : UInt8 := 0x2C
def quote : UInt8 := 0x22
def lineFeed : UInt8 := 0x0A
def carriageReturn : UInt8 := 0x0D

/-- Whether the byte ends a record. -/
def isTerminator (b : UInt8) : Bool := b == lineFeed || b == carriageReturn

/-- Whether the byte ends a field that is not quoted. -/
def isDelimiter (b : UInt8) : Bool := b == comma || isTerminator b

/-- The encoding of the byte order mark, which may stand in front of a table
    and is no part of it. -/
def byteOrderMark : Bytes := [0xEF, 0xBB, 0xBF]

/-- A place in a table: the number of bytes before it, its line counted from
    one, and the number of records before it. -/
structure Position where
  byte : Nat
  line : Nat
  record : Nat
  deriving DecidableEq

end Dialogue.Csv
