import Dialogue.Session.Action

/-! # What is seen of a run

    All that a session lets the outside know of a turn is a `Sight`: the answer,
    the stage, the listeners, the world, and the events. The cache is not among
    them, nor is what the log keeps of it, which tells whether conversations were
    compiled afresh or used again.

    A run is a sequence of turns. Two runs look alike where their turns look alike
    one by one, and for that it is enough that single turns do and that sessions
    related before a request are related behind it (`map_seen_turnsBy`).
-/

namespace Dialogue

variable {σ : Type}

/-! ### Sights -/

/-- The log keeps where compiled conversations came from. -/
def Event.isCacheNotice : Event → Bool
  | .logged (.compiled ..) | .logged (.reused _) => true
  | _ => false

/-- What can be seen of a turn. -/
structure Sight (σ α : Type) where
  answer : α
  stage : Stage
  audience : Audience
  world : σ
  events : List Event

/-- The turn as it is seen. -/
def Turn.seen {α : Type} (t : Turn σ α) : Sight σ α where
  answer := t.answer
  stage := t.session.stage
  audience := t.session.audience
  world := t.world
  events := t.events.filter fun e => !e.isCacheNotice

theorem Turn.seen_map {α β : Type} {f : α → β} {t t' : Turn σ α} (h : t.seen = t'.seen) :
    (t.map f).seen = (t'.map f).seen := by
  have hanswer := congrArg Sight.answer h
  have hstage := congrArg Sight.stage h
  have haudience := congrArg Sight.audience h
  have hworld := congrArg Sight.world h
  have hevents := congrArg Sight.events h
  simp only [Turn.seen] at hanswer hstage haudience hworld hevents
  simp only [Turn.seen, Turn.map, hanswer, hstage, haudience, hworld, hevents]

/-! ### Turns of a run -/

/-- The turns that follow requests one after the other, where `step` follows
    one. -/
def turnsBy (step : Session → σ → Action → Turn σ Answer) (s : Session) (w : σ) :
    List Action → List (Turn σ Answer)
  | [] => []
  | a :: rest =>
    let t := step s w a
    t :: turnsBy step t.session t.world rest

/-- The turns of a run of the session. -/
def Session.turns (h : Host σ) (s : Session) (w : σ) (actions : List Action) :
    List (Turn σ Answer) :=
  turnsBy (fun s w a => s.perform h w a) s w actions

/-- A run comes to its turns, one behind the other. -/
theorem Session.run_eq_turns (h : Host σ) (s : Session) (w : σ) (actions : List Action) :
    (s.run h w actions).answer = (s.turns h w actions).map Turn.answer ∧
      (s.run h w actions).events = (s.turns h w actions).flatMap Turn.events := by
  induction actions generalizing s w with
  | nil => exact ⟨rfl, rfl⟩
  | cons a rest ih =>
    obtain ⟨hanswer, hevents⟩ := ih (s.perform h w a).session (s.perform h w a).world
    exact ⟨congrArg (List.cons _) hanswer, congrArg (List.append _) hevents⟩

/-- Runs from related sessions look alike, if single turns do and lead to related
    sessions again. -/
theorem map_seen_turnsBy {step step' : Session → σ → Action → Turn σ Answer}
    {R : Session → Session → Prop}
    (hstep : ∀ s s' w a, R s s' → (step s w a).seen = (step' s' w a).seen ∧
      R (step s w a).session (step' s' w a).session)
    {s s' : Session} (hs : R s s') (w : σ) (actions : List Action) :
    (turnsBy step s w actions).map Turn.seen = (turnsBy step' s' w actions).map Turn.seen := by
  induction actions generalizing s s' w with
  | nil => rfl
  | cons a rest ih =>
    obtain ⟨hseen, hnext⟩ := hstep s s' w a hs
    -- The world is seen, so that both runs go on in the same one.
    have hworld : (step s w a).world = (step' s' w a).world := congrArg Sight.world hseen
    have hrest := ih hnext (step s w a).world
    rw [turnsBy, turnsBy, List.map_cons, List.map_cons, hseen, hrest, hworld]

end Dialogue
