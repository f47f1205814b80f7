import Dialogue.Csv.Reader
import Dialogue.Variables.Load

/-! # The columns of a table

    A reader of tables, which the command line uses. A table has the columns `name` and
    `value`, in any place among others. The first record of the table is its header. If the
    header is no text, the first two columns are taken.

    Each record is checked for its number of fields, then for being text, then for its
    columns.
-/

namespace Dialogue

/-- How the columns of a table are found. -/
inductive Columns
  /-- By the header. -/
  | named (header : List Text)
  /-- The name first, the value second. -/
  | positional
  deriving DecidableEq

namespace Columns

/-- Goes through the headed fields of a record. `name` and `value` are what was
    found so far. -/
def pickNamed (name value : Option Text) : List (Text × Text) → Except RecordFault (Text × Text)
  | [] =>
    match name, value with
    | some n, some v => .ok (n, v)
    | none, _ => .error (.missingColumn .name)
    | some _, none => .error (.missingColumn .value)
  | (heading, field) :: rest =>
    if heading = Column.name.heading then
      if name.isSome then .error (.duplicateColumn .name) else pickNamed (some field) value rest
    else if heading = Column.value.heading then
      if value.isSome then .error (.duplicateColumn .value) else pickNamed name (some field) rest
    else pickNamed name value rest

/-- The name and the value in a record. -/
def pick (columns : Columns) (fields : List Text) : Except RecordFault (Text × Text) :=
  match columns with
  | .named header => pickNamed none none (header.zip fields)
  | .positional =>
    match fields with
    | name :: value :: _ => .ok (name, value)
    | _ => .error (.tooShort fields.length)

/-- Reads fields as texts. `index` is the number of the fields before them. -/
def decodeFields (index : Nat) : List Csv.Bytes → Except RecordFault (List Text)
  | [] => .ok []
  | f :: rest =>
    match Text.decode f with
    | .error sound => .error (.invalidUtf8 index sound)
    | .ok t => do
      let ts ← decodeFields (index + 1) rest
      return t :: ts

/-- The columns under a header. -/
def ofHeader (header : List Csv.Bytes) : Columns :=
  match decodeFields 0 header with
  | .ok names => .named names
  | .error _ => .positional

/-- The name and the value in a record of a table with `width` columns. -/
def readRecord (columns : Columns) (width : Nat) (r : Csv.Record) :
    Except LoadError (Text × Text) :=
  Except.mapError (.record r.position) do
    if r.fields.length ≠ width then
      throw (.fieldCount r.fields.length width)
    let ts ← decodeFields 0 r.fields
    columns.pick ts

end Columns

namespace Feed

/-- What the records behind the header yield. -/
def ofBytes (bytes : Csv.Bytes) : Feed :=
  match Csv.read bytes with
  | [] => []
  | header :: rest =>
    rest.map ((Columns.ofHeader header.fields).readRecord header.fields.length)

end Feed

end Dialogue
