import Dialogue.Session.Error
import Dialogue.Text.Numeral
import Dialogue.Text.Quoted
import Dialogue.Variables.Error

/-! # Failures of the player

    What keeps the player from playing, or from playing on. A failure is reported by the name
    of its cause and the fields of it, texts between quotes.
-/

namespace Dialogue.Player

/-- Why the player fails. All but the last come before it has begun. -/
inductive Failure
  /-- No script is named, or no table behind its flag. -/
  | usage
  /-- The place of the first conversation is no number. -/
  | index (error : Text.NumeralError)
  /-- The script cannot be read. -/
  | script (error : ReadError)
  /-- The variables cannot be loaded. -/
  | globals (error : LoadError)
  /-- The script cannot be started. -/
  | session (error : SessionError)
  /-- The input goes on with what is no text. -/
  | input (error : ReadError)
  deriving DecidableEq

/-- How the player is called. -/
def usageText : Text := "usage: ibra-run <script> [start-index] [--vars <csv>]".toList

/-! ### Reports -/

/-- A name with one field of text behind the line number. -/
def reportField (name : String) (line : Nat) (field : String) (value : Text) : String :=
  s!"{name} \x7b line: {line}, {field}: {value.quoted.string} \x7d"

/-- The report of a refused script. -/
def reportCompile (e : CompileError) : String :=
  match e.cause with
  | .malformedHeader text => reportField "MalformedHeader" e.line "text" text
  | .missingHeader => s!"MissingHeader \x7b line: {e.line} \x7d"
  | .duplicateConversation name => reportField "DuplicateConversation" e.line "name" name
  | .emptyConversation name => reportField "EmptyConversation" e.line "name" name
  | .malformedChoice text => reportField "MalformedChoice" e.line "text" text
  | .choiceWithoutLine label => reportField "ChoiceWithoutLine" e.line "label" label
  | .unresolvedVariable name => reportField "UnresolvedVariable" e.line "name" name
  | .unterminatedMarker => s!"UnterminatedMarker \x7b line: {e.line} \x7d"
  | .malformedMarker marker => reportField "MalformedMarker" e.line "marker" marker
  | .invalidOffset offset length =>
    s!"InvalidOffset \x7b line: {e.line}, offset: {offset}, len: {length} \x7d"

/-- The report of a refused request. -/
def reportSession : SessionError → String
  | .noAsset => "NullAsset"
  | .outOfRange index count => s!"OutOfRange \x7b index: {index}, count: {count} \x7d"
  | .noActiveConversation => "NoActiveConversation"
  | .notFound name => s!"NotFound({name.quoted.string})"
  | .noPendingChoice => "NoPendingChoice"
  | .invalidChoice index count => s!"InvalidChoice \x7b index: {index}, count: {count} \x7d"
  | .compile e => s!"Compile({reportCompile e})"

/-- The report of a text that is no index. -/
def reportNumeral : Text.NumeralError → String
  | .empty => "ParseIntError \x7b kind: Empty \x7d"
  | .invalidDigit => "ParseIntError \x7b kind: InvalidDigit \x7d"
  | .overflow => "ParseIntError \x7b kind: PosOverflow \x7d"

/-- The report of a path without a text. -/
def reportRead (e : ReadError) : String :=
  let message := (Text.quoted e.words.toList).string
  match e.code with
  | some n => s!"Os \x7b code: {n}, kind: {e.kind}, message: {message} \x7d"
  | none => s!"Error \x7b kind: {e.kind}, message: {message} \x7d"

/-- The report of a position in a table. -/
def reportPosition (p : Csv.Position) : String :=
  s!"Some(Position \x7b byte: {p.byte}, line: {p.line}, record: {p.record} \x7d)"

/-- The report of a record whose fields are no variable, in words. -/
def reportMessage (p : Csv.Position) (message : String) : String :=
  s!"Deserialize \x7b pos: {reportPosition p}, err: " ++
    s!"DeserializeError \x7b field: None, " ++
      s!"kind: Message({(Text.quoted message.toList).string}) \x7d \x7d"

/-- The report of a record at fault. -/
def reportRecord (p : Csv.Position) : RecordFault → String
  | .fieldCount found expected =>
    s!"UnequalLengths \x7b pos: {reportPosition p}, expected_len: {expected}, len: {found} \x7d"
  | .invalidUtf8 field sound =>
    s!"Utf8 \x7b pos: {reportPosition p}, err: " ++
      s!"Utf8Error \x7b field: {field}, valid_up_to: {sound} \x7d \x7d"
  | .missingColumn c => reportMessage p s!"missing field `{c.heading.string}`"
  | .duplicateColumn c => reportMessage p s!"duplicate field `{c.heading.string}`"
  | .tooShort found =>
    reportMessage p s!"invalid length {found}, expected struct VariableRecord with 2 elements"

/-- The report of a refused table. -/
def reportLoad : LoadError → String
  | .unreadable e => s!"Csv(Error(Io({reportRead e})))"
  | .record p fault => s!"Csv(Error({reportRecord p fault}))"

/-- The report of a failure. -/
def Failure.report : Failure → String
  | .usage => usageText.quoted.string
  | .index e => reportNumeral e
  | .script e => reportRead e
  | .globals e => reportLoad e
  | .session e => reportSession e
  | .input e => reportRead e

end Dialogue.Player
