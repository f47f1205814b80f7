import Dialogue.Player.Arguments
import Dialogue.Session.Basic
import Dialogue.Text.Blank
import Dialogue.Text.Lines
import Dialogue.Variables.Load

/-! # The terminal player

    The player prints a conversation and reads a line of input whenever it has
    to go on. The line selects a choice where choices are pending, and otherwise
    advances the conversation, whatever it holds. The player ends with the
    conversation or with its input.

    Lines and choices go to the output, diagnostics and refused selections to
    the errors. The script runs without functions.
-/

namespace Dialogue.Player

/-- A printed line. -/
inductive Print
  | output (line : String)
  | error (line : String)
  deriving DecidableEq

/-- The view and the observer of the player. -/
def audience : Audience := ⟨some [], 0, 1⟩

/-- A session before the player, with these variables. -/
def seat (globals : Variables) : Session := { Session.new globals with audience }

/-- A world of its own the player does not need: there are no functions, and a
    printed line is brought out. -/
def host : Host Unit := ⟨∅, fun _ _ w => (.complete, w)⟩

/-! ### Printing -/

namespace Print

/-- A line of the conversation, with its speaker if it has one. -/
def ofLine (l : DisplayedLine) : Print :=
  if l.speaker.isEmpty then .output l.text.string
  else .output s!"{l.speaker.string}: {l.text.string}"

/-- The choices, each with the number to select it by. -/
def ofChoices (choices : List Choice) : List Print :=
  .output "== Choose option ==" ::
    (choices.zipIdx.map fun p => .output s!"{p.2}: {p.1.label.string}")

/-- What is printed at an event. -/
def ofEvent : Event → List Print
  | .lineShown _ l => [ofLine l]
  | .choicesShown _ choices => ofChoices choices
  | .started _ c => [.output s!"== Conversation start: {c.name.string} =="]
  | .ended _ => [.output "== Conversation end =="]
  | .diagnosed _ d => [.error s!"[{d.level.name}] {d.message}"]
  | _ => []

/-- What is printed at a sequence of events. -/
def ofEvents (events : List Event) : List Print := events.flatMap ofEvent

end Print

/-! ### Playing -/

/-- Starts the conversation that the arguments ask for, given what stands at the
    path of the script and at that of the table of variables, where one is named.
    The reader reads that table. -/
def launch (reader : TableReader) (a : Arguments) (script : Except ReadError Found)
    (table : Option (Except ReadError Found)) : Except Failure (Session × List Print) := do
  let asset ← (Asset.ofFile (Asset.fileName a.script) script).mapError .script
  let globals ←
    match table with
    | none => pure ∅
    | some table => (Variables.ofFile reader table).1.mapError .globals
  let turn := (seat globals).start host () (some asset) a.index
  match turn.answer with
  | .error e => throw (.session e)
  | .ok _ => return (turn.session, Print.ofEvents turn.events)

/-- Follows one line of input. -/
def respond (s : Session) (input : Text) : Session × List Print :=
  match s.phase with
  | .idle => (s, [])
  | .choicePending =>
    match Text.readIndex input.trim with
    | .error _ => (s, [.error "Enter the number of a choice."])
    | .ok index =>
      let turn := s.select host () index
      match turn.answer with
      | .error e => (turn.session, [.error e.message])
      | .ok _ => (turn.session, Print.ofEvents turn.events)
  | _ =>
    let turn := s.advance host ()
    (turn.session, Print.ofEvents turn.events)

/-- What one line of input comes to. -/
structure Reaction where
  session : Session
  prints : List Print
  /-- Whether the player reads on. -/
  goesOn : Bool

/-- Follows one line of input, unless the conversation is over. That is tested
    both before the line is followed and behind it. -/
def step (s : Session) (input : Text) : Reaction :=
  if s.phase = .idle then ⟨s, [], false⟩
  else
    let r := respond s input
    ⟨r.1, r.2, r.1.phase ≠ .idle⟩

/-- What a sequence of input lines comes to. -/
structure Played where
  session : Session
  prints : List Print
  /-- The lines that were not read. -/
  unread : List Text

/-- Follows input lines until the conversation is over. -/
def play (s : Session) : List Text → Played
  | [] => ⟨s, [], []⟩
  | input :: rest =>
    let r := step s input
    if r.goesOn then
      let p := play r.session rest
      { p with prints := r.prints ++ p.prints }
    else ⟨r.session, r.prints, rest⟩

/-- What the player prints from its start to its end, and its exit code. -/
structure Performance where
  prints : List Print
  code : Nat

/-- A performance that fails. -/
def fail (f : Failure) : Performance := ⟨[.error s!"Error: {f.report}"], 1⟩

/-- Plays a script. `files` is what stands at a path, and the reader reads the
    table of variables there. -/
def perform (reader : TableReader) (arguments : List Text)
    (files : Text → Except ReadError Found) (input : List Text) : Performance :=
  match Arguments.read arguments with
  | .error f => fail f
  | .ok a =>
    match launch reader a (files a.script) (a.table.map files) with
    | .error f => fail f
    | .ok (session, prints) => ⟨prints ++ (play session input).prints, 0⟩

end Dialogue.Player
