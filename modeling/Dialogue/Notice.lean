import Dialogue.Conversation
import Dialogue.Text.Quoted

/-! # Diagnostics and notices

    A diagnostic tells the observers of a session about a fault in its content
    that does not stop it. A notice is an entry of the log; each diagnostic is
    logged too. Both are values that say what happened. Their level and their
    wording are functions of the value.
-/

namespace Dialogue

/-! ### Levels -/

/-- How serious an entry is. -/
inductive Level
  | error
  | warn
  | debug
  | trace
  deriving DecidableEq

namespace Level

/-- The name of a level. -/
def name : Level → String
  | .error => "ERROR"
  | .warn => "WARN"
  | .debug => "DEBUG"
  | .trace => "TRACE"

end Level

/-! ### Diagnostics -/

/-- A fault in the content of a session. -/
inductive Diagnostic
  /-- A line runs a function that is not registered. -/
  | missingFunction (function : Text) (line : Nat) (conversation : Text)
  /-- A choice with the reserved target is selected. -/
  | reservedChoice
  /-- A choice is selected that leads to no conversation of the set. -/
  | unresolvedChoice (target label conversation : Text)
  deriving DecidableEq

namespace Diagnostic

/-- How serious a diagnostic is. -/
def level : Diagnostic → Level
  | .missingFunction .. => .warn
  | .reservedChoice => .warn
  | .unresolvedChoice .. => .error

/-- The wording of a diagnostic. -/
def message : Diagnostic → String
  | .missingFunction function line conversation =>
    s!"No dialogue function called \"{function.string}\" for line {line} of " ++
      s!"\"{conversation.string}\", skipping it"
  | .reservedChoice =>
    s!"The embedded choice is not yet implemented, '{reservedTarget.string}' keyword " ++
      "is reserved for future use"
  | .unresolvedChoice target label conversation =>
    s!"No conversation called \"{target.string}\" found for choice \"{label.string}\" " ++
      s!"in \"{conversation.string}\"."

end Diagnostic

/-! ### Notices -/

/-- An entry of the log. -/
inductive Notice
  /-- A script was compiled afresh. -/
  | compiled (count : Nat) (asset : Text)
  /-- An earlier compilation of a script was used again. -/
  | reused (asset : Text)
  /-- A table of variables gives a second value to a name. -/
  | replaced (name old : Text)
  /-- A table of variables was read to its end. -/
  | loaded (count : Nat)
  /-- A conversation begins. -/
  | starting (conversation : Text)
  /-- A conversation is over. -/
  | ended
  /-- A line is about to be shown. -/
  | displaying (line : DisplayedLine)
  /-- Choices are about to be shown. -/
  | waiting (count : Nat)
  /-- A choice leads to a conversation. -/
  | selected (label : Text)
  /-- A diagnostic is about to be reported. -/
  | reported (diagnostic : Diagnostic)
  deriving DecidableEq

namespace Notice

/-- How serious an entry is. -/
def level : Notice → Level
  | .compiled .. | .loaded _ | .starting _ | .ended | .waiting _ | .selected _ => .debug
  | .reused _ | .displaying _ => .trace
  | .replaced .. => .warn
  | .reported d => d.level

/-- An image as the log shows it. -/
def imageText : Option Text → String
  | none => "None"
  | some path => s!"Some({path.quoted.string})"

/-- A shown line as the log shows it. -/
def lineText (l : DisplayedLine) : String :=
  s!"DisplayedLine \x7b speaker: {l.speaker.quoted.string}, " ++
    s!"text: {l.text.quoted.string}, speaker_image: {imageText l.image} \x7d"

/-- The wording of an entry. -/
def message : Notice → String
  | .compiled count asset => s!"Compiled {count} conversations from \"{asset.string}\""
  | .reused asset => s!"Reusing compiled conversations for \"{asset.string}\""
  | .replaced name old =>
    s!"Variable \"{name.string}\" is defined more than once, replacing \"{old.string}\""
  | .loaded count => s!"Loaded {count} global variables"
  | .starting conversation => s!"Starting conversation \"{conversation.string}\""
  | .ended => "Conversation ended"
  | .displaying line => s!"Displaying {lineText line}"
  | .waiting count => s!"Waiting on {count} choices"
  | .selected label => s!"Selected choice \"{label.string}\""
  | .reported d => d.message

end Notice

end Dialogue
