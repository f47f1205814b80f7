import Dialogue.File.Basic

/-! # Assets

    A script as an author hands it in: a name and a source. An asset that is
    read from a file takes its name from the file, without the extension.
-/

namespace Dialogue

/-- A script under its name. -/
structure Asset where
  name : Text
  source : Text
  deriving DecidableEq

namespace Asset

/-- The name of a file without its extension, which begins at the last dot. A
    dot in front of the name begins no extension. -/
def stem (file : Text) : Text :=
  match file.reverse.dropWhile (· != '.') with
  | '.' :: before => if before.isEmpty then file else before.reverse
  | _ => file

/-- The last part of a path. -/
def fileName (path : Text) : Text := (path.reverse.takeWhile (· != '/')).reverse

/-- The asset in a file of that name, given what stands there. -/
def ofFile (file : Text) (found : Except ReadError Found) : Except ReadError Asset := do
  let found ← found
  let source ← found.text
  return ⟨stem file, source⟩

/-- The script that a new dialogue starts from. -/
def template : Asset where
  name := "New Dialogue".toList
  source := String.toList
    "# A new dialogue. Each conversation starts with a header.
\x7b\x7bConversationName(Start)\x7d\x7d
[Speaker]
Hello! This is a new dialogue.
Players can pick one of the choices below.
- Tell me more -> More
- Goodbye -> End

\x7b\x7bConversationName(More)\x7d\x7d
[Speaker]
Lines are grouped by the speaker tag above them.

\x7b\x7bConversationName(End)\x7d\x7d
[Speaker]
Goodbye!
"

end Asset

end Dialogue
