import Mathlib.Data.List.Forall2
import Dialogue.Text.Utf8
import Dialogue.Variables.Load

/-! # The dialect of tables

    Loading leaves the reading of a table to a reader, and this is what it relies on. First
    the grammar: what the bytes of a table stand for, said without a reader.

    - A field without commas, quotes and line ends stands for itself.
    - Any field may stand between quotes. There a doubled quote stands for one, and every
      other byte for itself.
    - Commas separate the fields of a record, and a line feed ends it.
    - An empty line is no record.

    No blank is trimmed. The dialect has more than this, such as other line ends and a last
    record without one, and this part of it is enough to write every table.

    Then the columns: the first record is the header, and a row yields what stands in it
    under `name` and `value` (`Csv.Dialect`).
-/

namespace Dialogue

namespace Csv

/-! ### The grammar -/

/-- What stands between the quotes of a field, and what it stands for. -/
inductive IsQuoted : (written content : Bytes) → Prop
  | nil : IsQuoted [] []
  | byte {b : UInt8} {written content : Bytes} (hb : b ≠ quote)
      (hrest : IsQuoted written content) : IsQuoted (b :: written) (b :: content)
  | doubled {written content : Bytes} (hrest : IsQuoted written content) :
      IsQuoted (quote :: quote :: written) (quote :: content)

/-- A field and its content. -/
inductive IsField : (written content : Bytes) → Prop
  | plain {content : Bytes} (hcontent : ∀ b ∈ content, b ≠ quote ∧ isDelimiter b = false) :
      IsField content content
  | quoted {written content : Bytes} (hwritten : IsQuoted written content) :
      IsField (quote :: written ++ [quote]) content

/-- Fields with commas between them. -/
inductive IsFields : (written : Bytes) → (record : List Bytes) → Prop
  | single {written content : Bytes} (hfield : IsField written content) :
      IsFields written [content]
  | cons {written content rest : Bytes} {record : List Bytes} (hfield : IsField written content)
      (hrest : IsFields rest record) : IsFields (written ++ comma :: rest) (content :: record)

/-- A record on a line of its own, which is not empty. -/
inductive IsLine : (written : Bytes) → (record : List Bytes) → Prop
  | ended {written : Bytes} {record : List Bytes} (hfields : IsFields written record)
      (hwritten : written ≠ []) : IsLine (written ++ [lineFeed]) record

/-- Records one behind the other. -/
inductive IsTable : (written : Bytes) → (table : List (List Bytes)) → Prop
  | nil : IsTable [] []
  | cons {written rest : Bytes} {record : List Bytes} {table : List (List Bytes)}
      (hline : IsLine written record) (hrest : IsTable rest table) :
      IsTable (written ++ rest) (record :: table)

end Csv

/-! ### The columns -/

/-- What stands under a column in a row. -/
def Column.cell? (c : Column) (header row : List Text) : Option Text :=
  (header.zip row).lookup c.heading

namespace Csv

/-- The pair is the name and the value in a row. -/
structure Holds (header row : List Text) (p : Text × Text) : Prop where
  name : Column.name.cell? header row = some p.1
  value : Column.value.cell? header row = some p.2

/-- What is documented of a reader of tables. Of a table of texts the first record is the
    header. Where it has one column for the names and one for the values, and the rows are as
    long as the header, each row yields, in order, what stands in it under these columns. A
    byte order mark in front is lost, so nothing is said of bytes that begin with one. -/
structure Dialect (reader : TableReader) : Prop where
  yields {bytes : Bytes} {header : List Text} {rows : List (List Text)}
    {pairs : List (Text × Text)}
    (htable : IsTable bytes ((header :: rows).map (List.map Text.encode)))
    (hmark : ¬ byteOrderMark <+: bytes)
    (hname : header.count Column.name.heading = 1)
    (hvalue : header.count Column.value.heading = 1)
    (hrows : ∀ row ∈ rows, row.length = header.length)
    (hpairs : List.Forall₂ (Holds header) rows pairs) : reader bytes = pairs.map .ok

end Csv

end Dialogue
