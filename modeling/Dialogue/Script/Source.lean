import Dialogue.Text.Lines
import Dialogue.Script.Token

/-! # The lines of a source

    Only significant lines of a source say something: those that are neither
    blank nor a comment, which begins with `#`. A significant line is read
    without the blanks around it and keeps the number of its physical line, so
    that layout can move a refusal to another line and change nothing else.
-/

namespace Dialogue

/-- A significant line, trimmed, with its number counted from one. -/
structure SourceLine where
  number : Nat
  text : Text
  deriving DecidableEq

namespace SourceLine

/-- Whether a trimmed line says something. -/
def isSignificant (t : Text) : Bool := !t.isEmpty && t.head? != some '#'

/-- The significant lines among the numbered ones. -/
def significant (numbered : List (Text × Nat)) : List SourceLine :=
  (numbered.map fun p => ⟨p.2, p.1.trim⟩).filter fun l => isSignificant l.text

/-- The significant lines of a source, in order. -/
def ofSource (source : Text) : List SourceLine := significant source.numberedLines

end SourceLine

/-- What the significant lines of a source say, each under its number. A line
    that is refused does not keep the following ones from being read. -/
structure Item where
  line : Nat
  token : Except Cause Token

namespace Item

/-- What a significant line says. -/
def ofSourceLine (l : SourceLine) : Item := ⟨l.number, Token.ofLine l.text⟩

/-- What a source says, line by line. -/
def ofSource (source : Text) : List Item := (SourceLine.ofSource source).map ofSourceLine

/-- The refusal of a line, with its number. -/
def result (i : Item) : Except CompileError Token :=
  i.token.mapError (⟨i.line, ·⟩)

end Item

end Dialogue
