import Dialogue.Markup.Stretch
import Dialogue.Script.Source

/-! # Compiling a script

    A script is read line by line into conversations. A header closes the
    conversation before it and opens the next one; the speaker named last
    speaks the texts below, up to the next header; a choice belongs to the text
    above it. The first line at fault decides the refusal. A conversation
    without a text is only found to be empty where it closes, and is reported
    under the number of its header.
-/

namespace Dialogue

/-! ### Lines -/

namespace Content

/-- The first invocation that stands before an earlier one or beyond the end of
    the text. -/
def misplaced? (length : Nat) (least : Nat) : List Invocation → Option Invocation
  | [] => none
  | i :: rest =>
    if i.offset < least || length < i.offset then some i else misplaced? length i.offset rest

end Content

/-- Compiles one text line, spoken by `speaker`. -/
def Line.compile (globals : Variables) (speaker raw : Text) : Except Cause Line := do
  let s ← Stretch.ofText globals raw
  match Content.misplaced? s.text.length 0 s.invocations with
  | some i => throw (.invalidOffset i.offset s.text.length)
  | none => return ⟨speaker, ⟨s.text, s.invocations⟩, s.image⟩

/-! ### Conversations -/

/-- A conversation that is still open: the line of its header, what has been
    read of it, and who speaks. -/
structure Draft where
  headerLine : Nat
  conversation : Conversation
  speaker : Text
  deriving DecidableEq

/-- What has been read of a script: the closed conversations, and the open one
    below the first header. -/
structure Compilation where
  closed : List Conversation
  draft : Option Draft
  deriving DecidableEq

namespace Draft

/-- An empty conversation, opened on line `line`. -/
def start (line : Nat) (name : Text) : Draft := ⟨line, ⟨name, [], []⟩, []⟩

/-- Closes the conversation, which needs a line to show. -/
def close (d : Draft) : Except CompileError Conversation :=
  if d.conversation.lines.isEmpty then
    throw ⟨d.headerLine, .emptyConversation d.conversation.name⟩
  else return d.conversation

/-- Adds a line to show. -/
def addLine (d : Draft) (l : Line) : Draft :=
  { d with conversation := { d.conversation with lines := d.conversation.lines ++ [l] } }

/-- Adds a choice behind the last line, if there is one. -/
def addChoice? (d : Draft) (c : Choice) : Option Draft :=
  match d.conversation.lines.length with
  | 0 => none
  | n + 1 =>
    some { d with conversation :=
      { d.conversation with choices := d.conversation.choices ++ [(c, n)] } }

end Draft

namespace Compilation

/-- Nothing read. -/
def empty : Compilation := ⟨[], none⟩

/-- Closes the open conversation, if any, behind the closed ones. -/
def close (s : Compilation) : Except CompileError (List Conversation) :=
  match s.draft with
  | none => return s.closed
  | some d => do
    let c ← d.close
    return s.closed ++ [c]

/-- The open conversation, without which a line has nowhere to go. -/
def current (s : Compilation) (line : Nat) : Except CompileError Draft :=
  match s.draft with
  | none => throw ⟨line, .missingHeader⟩
  | some d => return d

/-- Reads what a line says. -/
def read (globals : Variables) (s : Compilation) (line : Nat) :
    Token → Except CompileError Compilation
  | .header name => do
    let closed ← s.close
    if (Conversation.find? closed name).isSome then
      throw ⟨line, .duplicateConversation name⟩
    return ⟨closed, some (Draft.start line name)⟩
  | .speaker name => do
    let d ← s.current line
    return { s with draft := some { d with speaker := name } }
  | .text text => do
    let d ← s.current line
    let l ← (Line.compile globals d.speaker text).mapError (⟨line, ·⟩)
    return { s with draft := some (d.addLine l) }
  | .choice label target => do
    let d ← s.current line
    match d.addChoice? ⟨label, target⟩ with
    | none => throw ⟨line, .choiceWithoutLine label⟩
    | some d => return { s with draft := some d }

/-- Reads a line, which may have been refused already. -/
def step (globals : Variables) (s : Compilation) (i : Item) :
    Except CompileError Compilation := do
  let token ← i.result
  s.read globals i.line token

end Compilation

/-- Compiles what the lines of a script say. -/
def compileItems (globals : Variables) (items : List Item) :
    Except CompileError (List Conversation) := do
  let s ← items.foldlM (Compilation.step globals) Compilation.empty
  s.close

/-- Compiles a source to its conversations, in the order of the source. -/
def compile (globals : Variables) (source : Text) :
    Except CompileError (List Conversation) :=
  compileItems globals (Item.ofSource source)

end Dialogue
