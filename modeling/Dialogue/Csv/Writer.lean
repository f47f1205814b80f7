import Dialogue.Csv.Basic

/-! # Writing comma-separated values

    Every field is written between quotes, with the quotes inside it doubled, so
    that it may hold commas, quotes and line ends. Commas stand between the
    fields of a record and a line feed behind the last one.
-/

namespace Dialogue.Csv

/-- The bytes with each quote doubled. -/
def escape (bytes : Bytes) : Bytes :=
  bytes.flatMap fun b => if b = quote then [quote, quote] else [b]

theorem escape_cons (b : UInt8) (bytes : Bytes) :
    escape (b :: bytes) = (if b = quote then [quote, quote] else [b]) ++ escape bytes :=
  List.flatMap_cons

/-- A field between quotes. -/
def writeField (bytes : Bytes) : Bytes := quote :: escape bytes ++ [quote]

/-- A record and the end of its line. -/
def writeRecord (fields : List Bytes) : Bytes :=
  [comma].intercalate (fields.map writeField) ++ [lineFeed]

/-- A table, record by record. -/
def write (records : List (List Bytes)) : Bytes := records.flatMap writeRecord

theorem write_cons (record : List Bytes) (records : List (List Bytes)) :
    write (record :: records) = writeRecord record ++ write records :=
  List.flatMap_cons

end Dialogue.Csv
