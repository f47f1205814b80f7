import Dialogue.Player.Basic
import Dialogue.Proofs.Choosing
import Dialogue.Proofs.Phases

/-! # The player and its input

    At each line of input the player looks at the phase of its session. Where choices are
    pending the line has to select one, and otherwise the session goes on, whatever the line
    holds. No view can be busy then, since the one of the player brings out a line at once.
    So whenever a line is read, the session is playing or waits for a choice, and reading
    ends with the line that ends the conversation (`Player.Reads`).

    A line that chooses nothing leaves the session as it is, and comes to one line on the
    errors. The invariant of the player is all that this takes (`Player.Seated`): the session
    is consistent, so that no report of a choice meets a fault, and the listeners are those
    of the player, so that a report is printed once. It follows that such lines can be left
    out of the input, and neither the session nor the output shows it (`Player.Thins`).

    Main result:
    - `player_follows_session`: how the input is read, and what can be left out of it
-/

namespace Dialogue

variable {σ : Type}

/-! ### Views that are never busy -/

/-- Every view of the host brings out a line at once. -/
def Host.IsPrompt (h : Host σ) : Prop := ∀ view line w, (h.reveal view line w).1 = .complete

namespace Stage

variable {h : Host σ} {a : Audience} {s : Stage} {w : σ}

theorem busy_display (hprompt : h.IsPrompt) (hbusy : s.busy = false) :
    (s.display h a w).stage.busy = false := by
  unfold display
  split
  · exact hbusy
  · split
    · next c l hc hl =>
      have hanswer : ∀ line v, (h.present a.view line v).1 = .complete := by
        intro line v
        cases hview : a.view with
        | none => rfl
        | some view => exact hprompt view line v
      show ((h.present a.view _ _).1 == .revealing) = false
      rw [hanswer]
      rfl
    · exact hbusy

/-- No move makes a session busy whose view is not. -/
theorem Move.busy {o : Outcome σ} (hprompt : h.IsPrompt) (hbusy : s.busy = false)
    (hmove : s.Move h a w o) : o.stage.busy = false := by
  cases hmove with
  | stay globals busy events hstays hquiet =>
    exact hstays.elim (fun hsame => hsame.trans hbusy) id
  | stop => rfl
  | next c hc hs hpending hline => exact busy_display hprompt rfl
  | leave c hc hs hpending hline => rfl
  | enter before set index hquiet hset hindex => exact busy_display hprompt rfl

end Stage

namespace Player

/-! ### What a line asks for -/

/-- What a line of input asks of a session that waits for one. -/
inductive Asks (s : Session) (line : Text) : Option Action → Prop
  /-- While a line is shown the session goes on, whatever the input holds. -/
  | goesOn (hphase : s.phase = .playing) : Asks s line (some .advance)
  /-- Where choices are pending, a number selects one. -/
  | selects {n : Nat} (hphase : s.phase = .choicePending)
      (hline : Text.readIndex line.trim = .ok n) : Asks s line (some (.select n))
  /-- Anything else is no request. -/
  | nothing {e : Text.NumeralError} (hphase : s.phase = .choicePending)
      (hline : Text.readIndex line.trim = .error e) : Asks s line none

/-- What is printed when a request was answered. -/
def Print.ofTurn (t : Turn Unit Answer) : List Print :=
  match t.answer with
  | .refused e => [.error e.message]
  | _ => ofEvents t.events

/-- The session behind what was asked, and what is printed of it. -/
def comply (s : Session) : Option Action → Session × List Print
  | none => (s, [.error "Enter the number of a choice."])
  | some a =>
    let t := s.perform host () a
    (t.session, Print.ofTurn t)

/-- How the player reads its input, from a session that waits for a line. -/
inductive Reads : Session → List Text → Played → Prop
  /-- The input is over before the conversation is. -/
  | exhausted {s : Session} (hphase : s.phase = .playing ∨ s.phase = .choicePending) :
      Reads s [] ⟨s, [], []⟩
  /-- The line ends the conversation, and those behind it are not read. -/
  | ended {s : Session} {line : Text} {rest : List Text} {request : Option Action}
      (hasks : Asks s line request) (hend : (comply s request).1.phase = .idle) :
      Reads s (line :: rest) ⟨(comply s request).1, (comply s request).2, rest⟩
  /-- The conversation goes on, and so does the input. -/
  | read {s : Session} {line : Text} {rest : List Text} {request : Option Action} {p : Played}
      (hasks : Asks s line request) (hrest : Reads (comply s request).1 rest p) :
      Reads s (line :: rest) { p with prints := (comply s request).2 ++ p.prints }

/-- The line chooses nothing, though choices are pending. -/
inductive Rejects (s : Session) (line : Text) : Prop
  | noNumber {e : Text.NumeralError} (hphase : s.phase = .choicePending)
      (hline : Text.readIndex line.trim = .error e)
  | outOfRange {n : Nat} (hphase : s.phase = .choicePending)
      (hline : Text.readIndex line.trim = .ok n) (hn : s.stage.pending.length ≤ n)
  | reserved {n : Nat} {choice : Choice} (hphase : s.phase = .choicePending)
      (hline : Text.readIndex line.trim = .ok n) (hchoice : s.stage.pending[n]? = some choice)
      (hreserved : choice.target = reservedTarget)
  | unresolved {n : Nat} {choice : Choice} (hphase : s.phase = .choicePending)
      (hline : Text.readIndex line.trim = .ok n) (hchoice : s.stage.pending[n]? = some choice)
      (hfree : choice.target ≠ reservedTarget)
      (hname : ∀ c ∈ s.stage.conversations, c.name ≠ choice.target)

/-- `kept` is the input without some of the lines that are rejected when they are read. -/
inductive Thins : Session → (input kept : List Text) → Prop
  | nil {s : Session} : Thins s [] []
  | keep {s : Session} {line : Text} {rest kept : List Text}
      (hrest : Thins (respond s line).1 rest kept) : Thins s (line :: rest) (line :: kept)
  | drop {s : Session} {line : Text} {rest kept : List Text} (hline : Rejects s line)
      (hrest : Thins (respond s line).1 rest kept) : Thins s (line :: rest) kept

/-- The line is part of the output. -/
def Print.isOutput : Print → Bool
  | .output _ => true
  | .error _ => false

/-- Two readings of input end alike and show the same on the output. -/
structure Played.SameOutput (p q : Played) : Prop where
  session : p.session = q.session
  output : p.prints.filter Print.isOutput = q.prints.filter Print.isOutput
  unread : p.unread = q.unread

/-! ### The session of the player -/

theorem isPrompt_host : host.IsPrompt := fun _ _ _ => rfl

/-- A session as the player has it when it waits for a line. -/
structure Seated (s : Session) : Prop where
  consistent : s.Consistent
  audience : s.audience = audience
  brought_out : s.stage.busy = false

theorem seated_seat (globals : Variables) : Seated (seat globals) :=
  ⟨⟨Stage.consistent_idle globals, Cache.sound_empty⟩, rfl, rfl⟩

variable {s : Session} {line : Text} {request : Option Action} {input kept : List Text}

namespace Seated

theorem perform (hs : Seated s) {a : Action} (ha : a.attends = false) :
    Seated (s.perform host () a).session := by
  have hfollows := Session.follows_perform (h := host) (w := ()) hs.consistent.cache
    hs.consistent.stage.isAstray_eq_false ha
  exact ⟨(hs.consistent.perform host () a).1, hfollows.audience.trans hs.audience,
    hfollows.move.busy isPrompt_host hs.brought_out⟩

/-- While a conversation is active, the player has something to ask with any line. -/
theorem exists_asks (hs : Seated s) (hphase : s.phase ≠ .idle) (line : Text) :
    ∃ request, Asks s line request := by
  cases hnow : s.phase with
  | idle => exact absurd hnow hphase
  | playing => exact ⟨_, .goesOn hnow⟩
  | choicePending =>
    cases hline : Text.readIndex line.trim with
    | error e => exact ⟨_, .nothing hnow hline⟩
    | ok n => exact ⟨_, .selects hnow hline⟩
  | lineBusy =>
    -- The view never keeps the player waiting.
    have hbusy : s.stage.busy = true := (Stage.phase_eq_lineBusy_iff.1 hnow).2.2
    rw [hs.brought_out] at hbusy
    cases hbusy

theorem comply (hs : Seated s) (hasks : Asks s line request) : Seated (comply s request).1 := by
  cases hasks with
  | goesOn hphase => exact hs.perform rfl
  | selects hphase hline => exact hs.perform rfl
  | nothing hphase hline => exact hs

end Seated

theorem respond_of_idle (hphase : s.phase = .idle) (line : Text) : respond s line = (s, []) := by
  rw [respond, hphase]

/-- A line is followed by what it asks for. -/
theorem Asks.respond_eq (hasks : Asks s line request) : respond s line = comply s request := by
  cases hasks with
  | goesOn hphase =>
    rw [respond, hphase]
    rfl
  | selects hphase hline =>
    rw [respond, hphase]
    dsimp only
    rw [hline, comply, Print.ofTurn, Session.perform]
    dsimp only [Turn.map]
    -- A refusal is printed for itself, and any other answer by its events.
    cases (s.select host () _).answer with
    | error e => rfl
    | ok selection => rfl
  | nothing hphase hline =>
    rw [respond, hphase]
    dsimp only
    rw [hline]
    rfl

theorem Asks.phase (hasks : Asks s line request) :
    s.phase = .playing ∨ s.phase = .choicePending := by
  cases hasks with
  | goesOn hphase => exact .inl hphase
  | selects hphase hline => exact .inr hphase
  | nothing hphase hline => exact .inr hphase

/-- What playing a line and the lines behind it comes to, told by what following the line
    does. -/
theorem play_cons (s : Session) (line : Text) (rest : List Text) :
    play s (line :: rest) =
      if s.phase = .idle then ⟨s, [], rest⟩
      else if (respond s line).1.phase = .idle then
        ⟨(respond s line).1, (respond s line).2, rest⟩
      else
        let p := play (respond s line).1 rest
        { p with prints := (respond s line).2 ++ p.prints } := by
  rw [play, step]
  by_cases hphase : s.phase = .idle
  · rw [if_pos hphase, if_pos hphase]
    rfl
  · rw [if_neg hphase, if_neg hphase]
    dsimp only
    by_cases hend : (respond s line).1.phase = .idle
    · rw [if_pos hend, if_neg (by simpa using hend)]
    · rw [if_neg hend, if_pos (by simpa using hend)]

namespace Seated

theorem respond (hs : Seated s) (line : Text) : Seated (respond s line).1 := by
  by_cases hphase : s.phase = .idle
  · rw [respond_of_idle hphase]
    exact hs
  · obtain ⟨request, hasks⟩ := hs.exists_asks hphase line
    rw [hasks.respond_eq]
    exact hs.comply hasks

/-- The player has its session in order behind any input. -/
theorem play (hs : Seated s) (input : List Text) : Seated (play s input).session := by
  induction input generalizing s with
  | nil => exact hs
  | cons line rest ih =>
    rw [play_cons]
    split
    · exact hs
    · dsimp only
      split
      · exact hs.respond line
      · exact ih (hs.respond line)

/-- While a conversation is active, the player reads any input as it should. -/
theorem reads (hs : Seated s) (hphase : s.phase ≠ .idle) (input : List Text) :
    Reads s input (Player.play s input) := by
  induction input generalizing s with
  | nil =>
    obtain ⟨request, hasks⟩ := hs.exists_asks hphase []
    exact .exhausted hasks.phase
  | cons line rest ih =>
    obtain ⟨request, hasks⟩ := hs.exists_asks hphase line
    rw [play_cons, if_neg hphase, hasks.respond_eq]
    dsimp only
    split
    · next hend => exact .ended hasks hend
    · next hend => exact .read hasks (ih (hs.comply hasks) hend)

end Seated

/-! ### Lines that are rejected -/

theorem Rejects.phase (hline : Rejects s line) : s.phase = .choicePending := by
  cases hline <;> assumption

/-- Of a diagnostic the player prints one line, on the errors. -/
theorem Print.ofEvents_report (d : Diagnostic) :
    ofEvents (audience.report d) = [.error s!"[{d.level.name}] {d.message}"] := rfl

/-- A line that is rejected leaves the session as it is and comes to one line on the
    errors. -/
theorem Seated.respond_of_rejects (hs : Seated s) (hline : Rejects s line) :
    ∃ message, Player.respond s line = (s, [.error message]) := by
  cases hline with
  | noNumber hphase hline => exact ⟨_, (Asks.nothing hphase hline).respond_eq⟩
  | outOfRange hphase hline hn =>
    rw [(Asks.selects hphase hline).respond_eq, Player.comply,
      Session.perform_select_of_le (hs.consistent.phase_eq_choicePending_iff.1 hphase) hn]
    exact ⟨_, rfl⟩
  | reserved hphase hline hchoice hreserved =>
    rw [(Asks.selects hphase hline).respond_eq, Player.comply,
      Session.perform_select_eq hchoice, if_pos hreserved, hs.audience]
    exact ⟨_, congrArg (Prod.mk s) (Print.ofEvents_report _)⟩
  | unresolved hphase hline hchoice hfree hname =>
    rw [(Asks.selects hphase hline).respond_eq, Player.comply,
      Session.perform_select_eq hchoice, if_neg hfree, Conversation.index?_eq_none_iff.2 hname,
      Stage.faults_eq_nil hs.consistent.stage.isAstray_eq_false, hs.audience]
    exact ⟨_, congrArg (Prod.mk s) (Print.ofEvents_report _)⟩

/-! ### Input without them -/

/-- Behind a line that is rejected the session is the one before. -/
theorem Seated.thins_drop (hs : Seated s) (hline : Rejects s line) (hrest : Thins s input kept) :
    Thins s (line :: input) kept := by
  obtain ⟨message, hstays⟩ := hs.respond_of_rejects hline
  refine .drop hline ?_
  rw [hstays]
  exact hrest

/-- Where no conversation is active, no line is rejected. -/
theorem Thins.eq_of_idle (hthins : Thins s input kept) (hphase : s.phase = .idle) :
    kept = input := by
  induction hthins with
  | nil => rfl
  | keep hrest ih =>
    rw [respond_of_idle hphase] at ih
    rw [ih hphase]
  | drop hline hrest ih =>
    rw [hline.phase] at hphase
    cases hphase

/-- Lines that are rejected leave no trace in the session and on the output. -/
theorem Seated.sameOutput_of_thins (hs : Seated s) (hthins : Thins s input kept) :
    (Player.play s kept).SameOutput (Player.play s input) := by
  induction hthins with
  | nil => exact ⟨rfl, rfl, rfl⟩
  | @keep s line rest kept hrest ih =>
    obtain ⟨hsession, houtput, hunread⟩ := ih (hs.respond line)
    rw [play_cons, play_cons]
    by_cases hphase : s.phase = .idle
    · -- The conversation is over, so that nothing more is left out.
      rw [respond_of_idle hphase] at hrest
      rw [if_pos hphase, if_pos hphase, hrest.eq_of_idle hphase]
      exact ⟨rfl, rfl, rfl⟩
    · rw [if_neg hphase, if_neg hphase]
      dsimp only
      split
      · next hend =>
        -- It ends with this line, and the same holds of the lines behind it.
        rw [hrest.eq_of_idle hend]
        exact ⟨rfl, rfl, rfl⟩
      · refine ⟨hsession, ?_, hunread⟩
        rw [List.filter_append, List.filter_append, houtput]
  | @drop s line rest kept hline hrest ih =>
    obtain ⟨message, hstays⟩ := hs.respond_of_rejects hline
    rw [hstays] at ih
    obtain ⟨hsession, houtput, hunread⟩ := ih hs
    have hphase : s.phase ≠ .idle := by
      rw [hline.phase]
      exact Phase.noConfusion
    -- The line only puts its error in front of what the rest comes to.
    have hplay : Player.play s (line :: rest) =
        { Player.play s rest with prints := .error message :: (Player.play s rest).prints } := by
      rw [play_cons, if_neg hphase, hstays]
      exact if_neg hphase
    rw [hplay]
    exact ⟨hsession, houtput, hunread⟩

/-! ### The start -/

/-- A start that is followed leaves a conversation on. -/
theorem Seated.start (hs : Seated s) {asset : Option Asset} {index : Nat}
    (hanswer : (s.start host () asset index).answer = .ok ()) :
    Seated (s.start host () asset index).session ∧
      (s.start host () asset index).session.phase ≠ .idle := by
  refine ⟨hs.perform (a := .start asset index) rfl, ?_⟩
  have harrives : (Action.start asset index).Arrives
      (s.perform host () (.start asset index)) := by
    refine .inl ?_
    rw [Session.perform, Turn.map, hanswer]
    rfl
  obtain ⟨d, c, l, -, -, hphase⟩ := Session.phase_of_arrives hs.consistent harrives
  show (s.perform host () (.start asset index)).session.phase ≠ .idle
  rw [hphase]
  split
  · exact Phase.noConfusion
  · split <;> exact Phase.noConfusion

end Player

open Player in
/-- Once a conversation was started, whatever the script and the variables, the player reads
    any input as it should. At each line its session is playing or waits for a choice. The
    line makes the session go on, selects a choice or does nothing. Reading ends behind the
    line that ends the conversation, or with the input. A line that chooses nothing comes to
    one line on the errors, and where any such lines are left out of the input, the session
    and the output are the same in the end. -/
theorem player_follows_session (globals : Variables) (asset : Asset) (index : Nat) :
    let t := (seat globals).start host () (some asset) index
    t.answer = .ok () → ∀ input,
      Reads t.session input (play t.session input) ∧
      (∀ before line, let s := (play t.session before).session
        Rejects s line → ∃ message, respond s line = (s, [.error message])) ∧
      ∀ kept, Thins t.session input kept →
        (play t.session kept).SameOutput (play t.session input) := by
  intro t hanswer input
  obtain ⟨hs, hphase⟩ := (seated_seat globals).start hanswer
  refine ⟨hs.reads hphase input, ?_, ?_⟩
  · intro before line s hline
    exact (hs.play before).respond_of_rejects hline
  · intro kept hthins
    exact hs.sameOutput_of_thins hthins

open Player in
/-- At the fork the second way is taken, after a word and the reserved way. The mill has one
    line, and any input goes on behind it. -/
theorem player_follows_forkScript :
    let t := (seat ∅).start host () (some forkScript) 0
    let input := ["x", "2", "1", "7", "y"].map String.toList
    let p := play t.session input
    t.answer = .ok () ∧ p.session.phase = .idle ∧ p.unread = [['y']] ∧
      (∃ message, respond t.session ['2'] = (t.session, [.error message])) ∧
      (play t.session (["1", "7", "y"].map String.toList)).SameOutput p := by
  intro t input p
  have hruns : t.answer = .ok () ∧ t.session.phase = .choicePending ∧
      t.session.stage.pending[2]? = some ⟨"Left".toList, reservedTarget⟩ ∧
      p.session.phase = .idle ∧ p.unread = [['y']] := by decide +kernel
  obtain ⟨hanswer, hphase, hchoice, hend, hunread⟩ := hruns
  have hword : Rejects t.session ['x'] := .noNumber hphase (e := .invalidDigit) (by decide)
  have hreserved : Rejects t.session ['2'] := .reserved hphase (n := 2) (by decide) hchoice rfl
  have ht : t = (seat ∅).start host () (some forkScript) 0 := rfl
  obtain ⟨-, hrejected, hthinned⟩ := player_follows_session ∅ forkScript 0 hanswer input
  have hs : Seated t.session := ((seated_seat ∅).start hanswer).1
  rw [← ht] at hrejected hthinned
  clear_value t
  refine ⟨hanswer, hend, hunread, hrejected [] ['2'] hreserved, hthinned _ ?_⟩
  -- The word and the reserved way are left out, and all else is kept.
  exact hs.thins_drop hword (hs.thins_drop hreserved (.keep (.keep (.keep .nil))))

end Dialogue
