import Dialogue.Text.Blank
import Dialogue.Text.Split
import Dialogue.Script.Error

/-! # Tokens

    A line of a script says one of four things: it opens a conversation, it
    names the speaker of what follows, it offers a choice, or it is a text to
    be shown. Which one is decided from the trimmed line alone, in that order:

    - `{{ConversationName(NAME)}}` opens the conversation NAME;
    - `[NAME]` names the speaker;
    - `- LABEL -> TARGET` offers a choice, and the last arrow counts;
    - everything else is a text.

    A line that begins as a header or as a choice and then goes wrong is
    refused, never taken as a text.
-/

namespace Dialogue

/-- What a line of a script says. -/
inductive Token
  | header (name : Text)
  | speaker (name : Text)
  | choice (label target : Text)
  | text (text : Text)
  deriving DecidableEq

namespace Token

/-- What begins a marker. -/
def markerOpen : Text := ['{', '{']

/-- What ends a marker. -/
def markerClose : Text := ['}', '}']

/-- The word that makes a marker a header. -/
def headerTag : Text :=
  ['C', 'o', 'n', 'v', 'e', 'r', 's', 'a', 't', 'i', 'o', 'n', 'N', 'a', 'm', 'e']

/-- What stands between the label of a choice and its target. -/
def arrow : Text := ['-', '>']

/-- What follows the header word, for a line that begins as a header does. A
    longer identifier that only starts with the header word makes none. -/
def headerRest? (t : Text) : Option Text := do
  let inner ← Text.stripStart? markerOpen t
  let rest ← Text.stripStart? headerTag inner.trimStart
  if rest.head?.any Text.isIdentifierChar then none else some rest

/-- The name in what follows the header word: non-empty, between one pair of
    parentheses that are the only ones. -/
def headerName? (rest : Text) : Option Text := do
  let opened ← Text.stripStart? ['('] rest.trimStart
  let unmarked ← Text.stripEnd? markerClose opened
  let inner ← Text.stripEnd? [')'] unmarked.trimEnd
  let name := inner.trim
  if name.isEmpty || name.any (fun c => c == '(' || c == ')') then none else some name

/-- The name between the brackets of a speaker line. -/
def speakerName? (t : Text) : Option Text := do
  let opened ← Text.stripStart? ['['] t
  let inner ← Text.stripEnd? [']'] opened
  some inner.trim

/-- What follows the dash of a line that begins as a choice does: the dash
    stands alone or before a space or a tab. -/
def choiceBody? : Text → Option Text
  | ['-'] => some []
  | '-' :: c :: rest => if c == ' ' || c == '\t' then some (c :: rest) else none
  | _ => none

/-- The label and the target of a choice, neither of them empty. -/
def choiceParts? (body : Text) : Option (Text × Text) := do
  let (before, after) ← Text.splitLast? arrow body.trim
  let label := before.trim
  let target := after.trim
  if label.isEmpty || target.isEmpty then none else some (label, target)

/-- What a trimmed line says. -/
def ofLine (t : Text) : Except Cause Token :=
  match headerRest? t with
  | some rest =>
    match headerName? rest with
    | some name => .ok (.header name)
    | none => .error (.malformedHeader t)
  | none =>
    match speakerName? t with
    | some name => .ok (.speaker name)
    | none =>
      match choiceBody? t with
      | some body =>
        match choiceParts? body with
        | some (label, target) => .ok (.choice label target)
        | none => .error (.malformedChoice t)
      | none => .ok (.text t)

end Token

end Dialogue
