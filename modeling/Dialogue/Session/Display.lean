import Dialogue.Session.Event

/-! # Displaying a line

    To display the line that is played, a session runs the functions of the line,
    reports those that are not registered, hands the line to the view and the
    plugins, and offers the choices behind the line. The functions are called
    while the box is still empty and the session counts as busy. The view
    answers whether it has brought out the line or is still at it.
-/

namespace Dialogue

/-- The answer of a view to a line. -/
inductive DisplayStatus
  /-- The line is brought out. -/
  | complete
  /-- The view is still at it. -/
  | revealing
  deriving DecidableEq

/-- What a session is played for: the functions that scripts can run, and the
    answers of the views, over a world of type `σ`. -/
structure Host (σ : Type) where
  functions : Registry σ
  reveal : Text → DisplayedLine → σ → DisplayStatus × σ

variable {σ : Type}

/-- The answer of the view to a line. Where there is none, the line is brought
    out at once. -/
def Host.present (h : Host σ) (view : Option Text) (line : DisplayedLine) (w : σ) :
    DisplayStatus × σ :=
  match view with
  | none => (.complete, w)
  | some v => h.reveal v line w

/-- A stage and a world after something was done, and what was done. -/
structure Outcome (σ : Type) where
  stage : Stage
  world : σ
  events : List Event

namespace Audience

/-- Hands a line to the view and the plugins, and the choices behind it to the
    view. -/
def display (a : Audience) (c : Conversation) (index : Nat) (line : DisplayedLine) : List Event :=
  let choices := c.choicesAt index
  .logged (.displaying line) :: a.tellView (.lineShown · line) ++
    a.tellPlugins (.pluginShown · c index) ++
    if choices.isEmpty then []
    else .logged (.waiting choices.length) :: a.tellView (.choicesShown · choices)

end Audience

/-- Displays line `index` of a conversation. -/
def Stage.displayLine (h : Host σ) (a : Audience) (s : Stage) (c : Conversation) (index : Nat)
    (l : Line) (w : σ) : Outcome σ :=
  let scene := h.functions.scene { s with busy := true }
  let run := h.functions.run scene l.content w
  let line : DisplayedLine := ⟨l.speaker, run.text, l.image⟩
  let answer := h.present a.view line run.world
  { stage := { s with
      busy := answer.1 == .revealing, pending := c.choicesAt index, shown := some line }
    world := answer.2
    events := run.called.map (.called · scene) ++
      run.missing.flatMap (fun f => a.report (.missingFunction f index c.name)) ++
      a.display c index line }

/-- Displays the line that is played, if a conversation is active. -/
def Stage.display (h : Host σ) (a : Audience) (s : Stage) (w : σ) : Outcome σ :=
  if s.current.isNone then ⟨s, w, []⟩
  else
    match s.conversation?, s.line? with
    | some c, some l => s.displayLine h a c s.lineIndex l w
    | _, _ => ⟨s, w, [.fault]⟩

/-- Where the conversation and the line are there, the line is displayed. -/
theorem Stage.display_eq_displayLine {h : Host σ} {a : Audience} {s : Stage} {w : σ}
    {c : Conversation} {l : Line} (hc : s.conversation? = some c) (hl : s.line? = some l) :
    s.display h a w = s.displayLine h a c s.lineIndex l w := by
  have hactive : s.current.isNone = false := by
    cases hcurrent : s.current with
    | none => simp [Stage.conversation?, hcurrent] at hc
    | some i => rfl
  rw [Stage.display, hactive, hc, hl]
  rfl

end Dialogue
