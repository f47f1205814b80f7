import Dialogue.Notice
import Dialogue.Session.Function

/-! # Events

    Everything that a session does to the outside, in the order in which it
    does it. The view shows lines and choices, plugins follow each line,
    observers hear of conversations and diagnostics, functions are called, and
    the log keeps notices. Plugins and observers go by the number under which
    they were attached.

    A session looks up the conversation and the line that it plays without a
    check. Where one of them were not there, the session could not go on, and
    the fault stands among the events in the place of what would have followed.
-/

namespace Dialogue

/-- One thing done to the outside. -/
inductive Event
  /-- The view gets a line. -/
  | lineShown (view : Text) (line : DisplayedLine)
  /-- The view gets choices to select from. -/
  | choicesShown (view : Text) (choices : List Choice)
  /-- The view is cleared. -/
  | cleared (view : Text)
  /-- A plugin gets a line. -/
  | pluginShown (plugin : Nat) (conversation : Conversation) (line : Nat)
  /-- A plugin is cleared. -/
  | pluginCleared (plugin : Nat) (conversation : Option Conversation) (line : Nat)
  /-- An observer hears that a conversation begins. -/
  | started (observer : Nat) (conversation : Conversation)
  /-- An observer hears that the conversation is over. -/
  | ended (observer : Nat)
  /-- An observer hears of a fault in the content. -/
  | diagnosed (observer : Nat) (diagnostic : Diagnostic)
  /-- A function is called in a scene. -/
  | called (function : Text) (scene : Scene)
  /-- The log gets a notice. -/
  | logged (notice : Notice)
  /-- A conversation or a line is looked up where there is none. -/
  | fault

/-- Who is listening: the view, if there is one, and the numbers of plugins and
    of observers. -/
structure Audience where
  view : Option Text
  plugins : Nat
  observers : Nat
  deriving DecidableEq

/-- The fault of looking up the active conversation, if the set does not have it. -/
def Stage.faults (s : Stage) : List Event := if s.isAstray then [.fault] else []

namespace Audience

/-- Nobody. -/
def nobody : Audience := ⟨none, 0, 0⟩

/-- Tells the view, if there is one. -/
def tellView (a : Audience) (e : Text → Event) : List Event := a.view.toList.map e

/-- Tells every plugin, in the order of their numbers. -/
def tellPlugins (a : Audience) (e : Nat → Event) : List Event := (List.range a.plugins).map e

/-- Tells every observer, in the order of their numbers. -/
def tellObservers (a : Audience) (e : Nat → Event) : List Event :=
  (List.range a.observers).map e

/-- Logs a diagnostic and tells every observer of it. -/
def report (a : Audience) (d : Diagnostic) : List Event :=
  .logged (.reported d) :: a.tellObservers (.diagnosed · d)

/-- Clears the dialogue box, which belonged to this stage. -/
def clear (a : Audience) (s : Stage) : List Event :=
  a.tellView .cleared ++ s.faults ++
    a.tellPlugins (.pluginCleared · s.conversation? s.lineIndex)

/-- Stops the conversation on this stage, if one is active there. -/
def stop (a : Audience) (s : Stage) : List Event :=
  a.clear s ++
    if s.current.isSome then .logged .ended :: a.tellObservers .ended else []

/-- Announces the conversation on this stage. -/
def announce (a : Audience) (s : Stage) : List Event :=
  match s.conversation? with
  | none => [.fault]
  | some c => .logged (.starting c.name) :: a.tellObservers (.started · c)

end Audience

end Dialogue
