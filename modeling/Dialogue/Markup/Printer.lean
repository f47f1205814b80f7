import Dialogue.Markup.Segment

/-! # Writing segments

    The markup of a segment. A dollar in plain text is doubled, so that it
    begins no variable.
-/

namespace Dialogue.Segment

/-- Plain text with each dollar doubled. -/
def escape (t : Text) : Text := t.flatMap fun c => if c = '$' then ['$', '$'] else [c]

/-- The markup of a segment. -/
def print : Segment → Text
  | .literal text => escape text
  | .reference name => '$' :: name
  | .function name => Token.markerOpen ++ name ++ Token.markerClose
  | .image path => Token.markerOpen ++ imageTag ++ '(' :: path ++ ')' :: Token.markerClose

/-- The markup of a sequence of segments. -/
def printAll (segments : List Segment) : Text := segments.flatMap print

/-- The segments with neighbouring plain texts put together. -/
def merge : List Segment → List Segment
  | [] => []
  | .literal t :: rest =>
    match merge rest with
    | .literal u :: rest => .literal (t ++ u) :: rest
    | rest => .literal t :: rest
  | s :: rest => s :: merge rest

end Dialogue.Segment
