import Dialogue.Text.Basic

/-! # Errors of a script

    A script that cannot be compiled is refused with the number of the line
    where that shows and the cause. A cause holds the words of the script that
    it is about, without quotes or escapes.
-/

namespace Dialogue

/-- Why a line of a script is refused. -/
inductive Cause
  /-- A line that opens a conversation but names none. -/
  | malformedHeader (text : Text)
  /-- Content above the first header. -/
  | missingHeader
  /-- A second conversation of one name. -/
  | duplicateConversation (name : Text)
  /-- A conversation without any line to show. -/
  | emptyConversation (name : Text)
  /-- A choice without an arrow, a label or a target. -/
  | malformedChoice (text : Text)
  /-- A choice above the first line of its conversation. -/
  | choiceWithoutLine (label : Text)
  /-- A variable that has no value. -/
  | unresolvedVariable (name : Text)
  /-- A marker that is never closed. -/
  | unterminatedMarker
  /-- A closed marker that is neither a function nor an image. -/
  | malformedMarker (marker : Text)
  /-- An invocation out of order or beyond the end of its line. -/
  | invalidOffset (offset length : Nat)
  deriving DecidableEq

/-- A refusal: the cause and the line where it shows, counted from one. -/
structure CompileError where
  line : Nat
  cause : Cause
  deriving DecidableEq

/-- The wording of a cause. -/
def Cause.message : Cause → String
  | .malformedHeader text => s!"malformed conversation header \"{text.string}\""
  | .missingHeader => "content found before the first conversation header"
  | .duplicateConversation name => s!"a conversation named \"{name.string}\" already exists"
  | .emptyConversation name => s!"conversation \"{name.string}\" has no lines"
  | .malformedChoice text =>
    s!"malformed choice \"{text.string}\", expected \"- Label -> Target\""
  | .choiceWithoutLine label =>
    s!"choice \"{label.string}\" appears before any line of its conversation"
  | .unresolvedVariable name => s!"no global variable named \"{name.string}\""
  | .unterminatedMarker => "unterminated \"\x7b\x7b\" marker"
  | .malformedMarker marker => s!"malformed marker \"\x7b\x7b{marker.string}\x7d\x7d\""
  | .invalidOffset offset length =>
    s!"invocation offset {offset} is invalid for text of length {length}"

/-- The wording of a refusal. -/
def CompileError.message (e : CompileError) : String :=
  s!"line {e.line}: {e.cause.message}"

end Dialogue
