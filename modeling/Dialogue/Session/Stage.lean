import Dialogue.Conversation
import Dialogue.Variables.Basic

/-! # The stage

    The part of a session that functions and listeners can look at: the
    variables, the conversations that are being played, where the play stands,
    and what the dialogue box shows. From these the phase of the session
    follows, and the phase decides what a request does.
-/

namespace Dialogue

/-- What a session shows of itself. -/
structure Stage where
  globals : Variables
  /-- The conversations of the asset that was started last. -/
  conversations : List Conversation
  /-- The place of the active conversation among them, while one is active. -/
  current : Option Nat
  /-- The number of the line that is played. -/
  lineIndex : Nat
  /-- Whether the line is still being brought out. -/
  busy : Bool
  /-- The choices to select from. -/
  pending : List Choice
  /-- The line in the dialogue box. -/
  shown : Option DisplayedLine

/-- What a session is doing. -/
inductive Phase
  /-- No conversation is active. -/
  | idle
  /-- A line is shown and may be left. -/
  | playing
  /-- A choice has to be selected. -/
  | choicePending
  /-- The view is still bringing out the line. -/
  | lineBusy
  deriving DecidableEq

namespace Stage

/-- A stage before its first conversation. -/
def idle (globals : Variables) : Stage where
  globals := globals
  conversations := []
  current := none
  lineIndex := 0
  busy := false
  pending := []
  shown := none

/-- What the session is doing. -/
def phase (s : Stage) : Phase :=
  if s.current.isNone then .idle
  else if !s.pending.isEmpty then .choicePending
  else if s.busy then .lineBusy
  else .playing

theorem phase_eq_idle_iff {s : Stage} : s.phase = .idle ↔ s.current = none := by
  unfold phase
  cases s.current with
  | none => simp
  | some i => by_cases hpending : s.pending.isEmpty <;> by_cases hbusy : s.busy <;> simp_all

theorem phase_eq_choicePending_iff {s : Stage} :
    s.phase = .choicePending ↔ s.current ≠ none ∧ s.pending ≠ [] := by
  unfold phase
  cases s.current with
  | none => simp
  | some i => by_cases hpending : s.pending = [] <;> cases s.busy <;> simp [hpending]

theorem phase_eq_lineBusy_iff {s : Stage} :
    s.phase = .lineBusy ↔ s.current ≠ none ∧ s.pending = [] ∧ s.busy = true := by
  unfold phase
  cases s.current with
  | none => simp
  | some i => by_cases hpending : s.pending = [] <;> cases s.busy <;> simp [hpending]

theorem phase_eq_playing_iff {s : Stage} :
    s.phase = .playing ↔ s.current ≠ none ∧ s.pending = [] ∧ s.busy = false := by
  unfold phase
  cases s.current with
  | none => simp
  | some i => by_cases hpending : s.pending = [] <;> cases s.busy <;> simp [hpending]

/-- The active conversation. -/
def conversation? (s : Stage) : Option Conversation :=
  s.current.bind fun i => s.conversations[i]?

/-- Whether the stage points at a conversation that the set does not have. -/
def isAstray (s : Stage) : Bool := s.current.isSome && s.conversation?.isNone

/-- The line that is played, as it was compiled. -/
def line? (s : Stage) : Option Line :=
  s.conversation?.bind fun c => c.lines[s.lineIndex]?

/-- The stage with an empty dialogue box. -/
def clear (s : Stage) : Stage := { s with busy := false, pending := [], shown := none }

/-- The stage after the active conversation was stopped. -/
def stop (s : Stage) : Stage := { s.clear with current := none, lineIndex := 0 }

/-- The stage at the first line of a conversation of the set. -/
def enter (s : Stage) (set : List Conversation) (index : Nat) : Stage :=
  { s.stop with conversations := set, current := some index, lineIndex := 0 }

end Stage

end Dialogue
