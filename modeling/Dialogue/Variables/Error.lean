import Dialogue.Csv.Basic
import Dialogue.File.Basic

/-! # Errors of a table of variables

    A table of variables is refused at its first record at fault. The refusal
    says where reading that record began and what is wrong with it.
-/

namespace Dialogue

/-- A column that a table of variables needs. -/
inductive Column
  | name
  | value
  deriving DecidableEq

/-- The heading of a column. -/
def Column.heading : Column → Text
  | .name => ['n', 'a', 'm', 'e']
  | .value => ['v', 'a', 'l', 'u', 'e']

/-- What is wrong with a record. -/
inductive RecordFault
  /-- It has more or fewer fields than the header. -/
  | fieldCount (found expected : Nat)
  /-- A field is no text beyond its first `sound` bytes. -/
  | invalidUtf8 (field sound : Nat)
  /-- The table lacks a column. -/
  | missingColumn (column : Column)
  /-- The table has a column twice. -/
  | duplicateColumn (column : Column)
  /-- Read by position, it has too few fields. -/
  | tooShort (found : Nat)
  deriving DecidableEq

/-- Why a table of variables is refused. -/
inductive LoadError
  /-- There is no table. -/
  | unreadable (error : ReadError)
  | record (position : Csv.Position) (fault : RecordFault)
  deriving DecidableEq

namespace LoadError

/-- The wording of a fault in the record at a position. -/
def recordMessage (p : Csv.Position) : RecordFault → String
  | .fieldCount found expected =>
    s!"CSV error: record {p.record} (line: {p.line}, byte: {p.byte}): " ++
      s!"found record with {found} fields, but the previous record has {expected} fields"
  | .invalidUtf8 field sound =>
    s!"CSV parse error: record {p.record} (line {p.line}, field: {field}, byte: {p.byte}): " ++
      s!"invalid utf-8: invalid UTF-8 in field {field} near byte index {sound}"
  | .missingColumn c =>
    s!"CSV deserialize error: record {p.record} (line: {p.line}, byte: {p.byte}): " ++
      s!"missing field `{c.heading.string}`"
  | .duplicateColumn c =>
    s!"CSV deserialize error: record {p.record} (line: {p.line}, byte: {p.byte}): " ++
      s!"duplicate field `{c.heading.string}`"
  | .tooShort found =>
    s!"CSV deserialize error: record {p.record} (line: {p.line}, byte: {p.byte}): " ++
      s!"invalid length {found}, expected struct VariableRecord with 2 elements"

/-- The wording of a refusal. -/
def message : LoadError → String
  | .unreadable e => s!"could not read variables: {e.message}"
  | .record p fault => s!"could not read variables: {recordMessage p fault}"

end LoadError

end Dialogue
