import Dialogue.Text.Blank
import Dialogue.Text.Split
import Dialogue.Script.Error
import Dialogue.Script.Token

/-! # Segments

    A text line mixes plain characters, references to variables, functions to
    run and an image. The last two are written as markers, between double
    braces: an identifier names a function, and `Image(PATH)` gives the path of
    an image. Nothing else may stand in a marker.
-/

namespace Dialogue

/-- What a piece of a text line stands for. -/
inductive Segment
  | literal (text : Text)
  | reference (name : Text)
  | function (name : Text)
  | image (path : Text)
  deriving DecidableEq

namespace Segment

/-- The word that makes a marker an image. -/
def imageTag : Text := ['I', 'm', 'a', 'g', 'e']

/-- The path in an image marker: what stands, trimmed and not empty, between
    the parentheses behind the image word. -/
def imagePath? (inner : Text) : Option Text := do
  let rest ← Text.stripStart? imageTag inner
  let opened ← Text.stripStart? ['('] rest.trimStart
  let path ← Text.stripEnd? [')'] opened
  if path.trim.isEmpty then none else some path.trim

/-- What a marker with this trimmed inside stands for. -/
def ofMarker (inner : Text) : Except Cause Segment :=
  if Text.isIdentifier inner then .ok (.function inner)
  else
    match imagePath? inner with
    | some path => .ok (.image path)
    | none => .error (.malformedMarker inner)

end Segment

end Dialogue
