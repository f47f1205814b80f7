import Dialogue.Notice
import Dialogue.Variables.Basic
import Dialogue.Variables.Error

/-! # Loading variables

    Variables are loaded from a table. Reading the table is left to a reader, which yields
    a name with its value for each record, or what is wrong with the record.

    Loading goes through what the reader yields, in order. The last value of a name stays,
    and each replacement is noted. The first record at fault ends the loading without
    variables.
-/

namespace Dialogue

/-- What reading a table yields, record by record: a name with its value, or what is wrong
    with the record. -/
abbrev Feed := List (Except LoadError (Text × Text))

/-- A reader of tables, from the bytes of a table to what they yield. -/
abbrev TableReader := Csv.Bytes → Feed

namespace Feed

/-- Adds what a feed yields to variables, up to the first record at fault, and notes each
    value that goes. -/
def loadInto (v : Variables) : Feed → Except LoadError Variables × List Notice
  | [] => (.ok v, [.loaded v.size])
  | .error e :: _ => (.error e, [])
  | .ok (name, value) :: rest =>
    let r := loadInto (v.insert name value) rest
    match v[name]? with
    | some old => (r.1, .replaced name old :: r.2)
    | none => r

/-- The variables that a feed gives, and what the log keeps of loading them. -/
def load (f : Feed) : Except LoadError Variables × List Notice := f.loadInto ∅

end Feed

namespace Variables

/-- Loads variables from a table. -/
def ofTable (reader : TableReader) (bytes : Csv.Bytes) :
    Except LoadError Variables × List Notice :=
  (reader bytes).load

/-- Loads variables from a file, given what stands there. A folder can be
    opened like a table, and is one without records. -/
def ofFile (reader : TableReader) :
    Except ReadError Found → Except LoadError Variables × List Notice
  | .error e => (.error (.unreadable e), [])
  | .ok .folder => ofTable reader []
  | .ok (.file bytes) => ofTable reader bytes

end Variables

end Dialogue
