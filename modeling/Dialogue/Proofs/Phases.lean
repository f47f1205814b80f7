import Dialogue.Proofs.Arrival

/-! # Requests by phase

    The phase of a session follows from three fields of its stage, and requests look
    at these fields, each at its own. That they never disagree is the main statement,
    `phase_decides`: what a request does can be told from the phase alone, and the
    phase that it ends in can be told from the line at which it arrives and from the
    answer of the view (`Session.GoesByPhase`).

    Three points carry it. While no conversation is active nothing is pending, so
    that what is pending is what the phase says. A line with choices is never left by
    going on, whether or not the view has brought it out. And the display of a line
    has the last word on whether the session is busy.
-/

namespace Dialogue

variable {σ : Type}

/-- What the view answers to a line, once its functions were run on this stage. -/
def Host.reply (h : Host σ) (a : Audience) (s : Stage) (l : Line) (w : σ) : DisplayStatus :=
  let run := h.functions.run (h.functions.scene s) l.content w
  (h.present a.view ⟨l.speaker, run.text, l.image⟩ run.world).1

/-- The phase decides what each request to the session comes to, in this world. -/
structure Session.GoesByPhase (h : Host σ) (s : Session) (w : σ) : Prop where
  /-- While it is playing, and only then, the session goes on. -/
  advance : (s.perform h w .advance).answer = .advanced true ↔ s.phase = .playing
  /-- It goes on to the next line of its conversation, if there is one, and is idle
      behind the last. -/
  onward : s.phase = .playing → ∃ c, s.stage.conversation? = some c ∧
    let t := s.perform h w .advance
    if s.stage.lineIndex + 1 < c.lines.length then
      t.session.stage.conversation? = some c ∧ t.session.stage.lineIndex = s.stage.lineIndex + 1
    else t.session.phase = .idle
  /-- Otherwise nothing comes of going on. -/
  still : s.phase ≠ .playing → s.perform h w .advance = s.rest w (.advanced false)
  /-- There is nothing to choose from unless a choice has to be selected. -/
  unoffered : ∀ index, (s.perform h w (.select index)).answer = .refused .noPendingChoice ↔
    s.phase ≠ .choicePending
  /-- Then the choices that can be selected are the pending ones. -/
  offered : s.phase = .choicePending → ∀ index,
    let answer := (s.perform h w (.select index)).answer
    if index < s.stage.pending.length then ∃ selection, answer = .selected selection
    else answer = .refused (.invalidChoice index s.stage.pending.length)
  /-- The view has brought out the line. This ends a phase only where the session
      waited for it. -/
  finish :
    let t := s.perform h w .finishLine
    t.session.phase = (if s.phase = .lineBusy then .playing else s.phase) ∧
      t = ⟨.done, { s with stage := { s.stage with busy := false } }, w, []⟩
  stop : (s.perform h w .stop).session.phase = .idle
  /-- Behind the display of a line the choices decide, and without choices the
      view. -/
  arrival : ∀ a, let t := s.perform h w a
    a.Arrives t → ∃ d c l, s.LeadsTo a d ∧ t.session.stage.IsAt d c l ∧
      t.session.phase =
        if c.hasChoicesAt d.lineIndex then .choicePending
        else if h.reply s.audience t.session.stage.working l w = .revealing then .lineBusy
        else .playing
  /-- Choices stay pending, and the line with them, until a conversation is entered or
      the session stops. -/
  held : s.phase = .choicePending → ∀ a, let t := s.perform h w a
    a = .stop ∨ a.enters t.answer = true ∨
      t.session.phase = .choicePending ∧ t.session.stage.pending = s.stage.pending ∧
        t.session.stage.conversation? = s.stage.conversation? ∧
        t.session.stage.lineIndex = s.stage.lineIndex

/-- A line that is brought out ends a phase only where the session waited for it. -/
theorem Stage.phase_brought_out (s : Stage) :
    ({ s with busy := false } : Stage).phase =
      if s.phase = .lineBusy then .playing else s.phase := by
  by_cases hbusy : s.phase = .lineBusy
  · rw [if_pos hbusy]
    obtain ⟨hactive, hpending, -⟩ := phase_eq_lineBusy_iff.1 hbusy
    exact phase_eq_playing_iff.2 ⟨hactive, hpending, rfl⟩
  · rw [if_neg hbusy]
    unfold phase at hbusy ⊢
    dsimp only
    split
    · rfl
    · split
      · rfl
      · simp_all

namespace Session

variable {h : Host σ} {s : Session} {w : σ}

/-- Between requests, a choice has to be selected if any is pending. -/
theorem Consistent.phase_eq_choicePending_iff (hs : s.Consistent) :
    s.phase = .choicePending ↔ s.stage.pending ≠ [] := by
  rw [phase, Stage.phase_eq_choicePending_iff, and_iff_right_iff_imp]
  intro hpending hidle
  exact hpending (hs.stage.idle hidle).pending

/-! ### Going on -/

theorem perform_advance_of_ne_playing (hs : s.Consistent) (hphase : s.phase ≠ .playing) :
    s.perform h w .advance = s.rest w (.advanced false) := by
  rw [perform, hs.advance_eq_rest hphase]
  rfl

theorem perform_advance_of_playing (hs : s.Consistent) (hphase : s.phase = .playing) :
    let t := s.perform h w .advance
    t.answer = .advanced true ∧ ∃ c, s.stage.conversation? = some c ∧
      if s.stage.lineIndex + 1 < c.lines.length then
        t.session.stage.conversation? = some c ∧ t.session.stage.lineIndex = s.stage.lineIndex + 1
      else t.session.phase = .idle := by
  obtain ⟨i, c, hcurrent, hi, hadvance⟩ := hs.advance_eq (h := h) (w := w) hphase
  have hc : s.stage.conversation? = some c := Stage.conversation?_eq_some_iff.2 ⟨i, hcurrent, hi⟩
  rw [perform, hadvance]
  by_cases hline : s.stage.lineIndex + 1 < c.lines.length
  · -- The display stays at the line that it displays.
    have hleads := LeadsTo.advance hphase hcurrent hi hline
    obtain ⟨c', l, hnext, hl⟩ := hleads.line? hs
    have hsame : c' = c := Option.some.inj (hnext.symm.trans hi)
    rw [if_pos hline, Stage.display_eq_displayLine hnext hl]
    refine ⟨rfl, c, hc, ?_⟩
    rw [if_pos hline]
    exact ⟨hi, rfl⟩
  · rw [if_neg hline]
    refine ⟨rfl, c, hc, ?_⟩
    rw [if_neg hline]
    rfl

/-! ### Choosing -/

theorem answer_select_of_ne_choicePending (hs : s.Consistent) (hphase : s.phase ≠ .choicePending)
    (index : Nat) : (s.perform h w (.select index)).answer = .refused .noPendingChoice := by
  rw [Ne, hs.phase_eq_choicePending_iff, not_not] at hphase
  simp [perform, select, hphase, rest, Turn.map, Answer.ofExcept]

theorem answer_select_of_choicePending (hs : s.Consistent) (hphase : s.phase = .choicePending)
    (index : Nat) :
    let answer := (s.perform h w (.select index)).answer
    if index < s.stage.pending.length then ∃ selection, answer = .selected selection
    else answer = .refused (.invalidChoice index s.stage.pending.length) := by
  have hpending : ¬ s.stage.pending.isEmpty = true := by
    rw [List.isEmpty_iff]
    exact hs.phase_eq_choicePending_iff.1 hphase
  simp only [perform, select, if_neg hpending]
  by_cases hindex : index < s.stage.pending.length
  · -- Wherever the choice leads, the answer is a selection.
    rw [if_pos hindex, List.getElem?_eq_getElem hindex]
    dsimp only
    split
    · exact ⟨_, rfl⟩
    · split <;> exact ⟨_, rfl⟩
  · rw [if_neg hindex, List.getElem?_eq_none (Nat.le_of_not_lt hindex)]
    rfl

/-! ### Arriving and staying -/

/-- The phase behind the display of a line. -/
theorem phase_of_arrives (hs : s.Consistent) {a : Action}
    (harrives : a.Arrives (s.perform h w a)) :
    let t := s.perform h w a
    ∃ d c l, s.LeadsTo a d ∧ t.session.stage.IsAt d c l ∧
      t.session.phase =
        if c.hasChoicesAt d.lineIndex then .choicePending
        else if h.reply s.audience t.session.stage.working l w = .revealing then .lineBusy
        else .playing := by
  intro t
  cases conduct_perform (h := h) (w := w) hs a with
  | leaves hnot ha hstage hevents => exact absurd harrives hnot
  | stays hnot globals busy hstage hevents => exact absurd harrives hnot
  | arrives _ d c l hleads hc hl before hbefore houtcome =>
    have hstage : t.session.stage = _ := congrArg Outcome.stage houtcome
    have hat : t.session.stage.IsAt d c l := by
      rw [hstage]
      exact Stage.isAt_of_facing hc hl _ _ _
    refine ⟨d, c, l, hleads, hat, ?_⟩
    have hactive : t.session.stage.current ≠ none := by
      rw [hat.current]
      exact Option.some_ne_none d.current
    have hworking : t.session.stage.working = (s.stage.facing d).working := by rw [hstage]; rfl
    have hpending : t.session.stage.pending = c.choicesAt d.lineIndex := by rw [hstage]; rfl
    have hbusy : t.session.stage.busy =
        (h.reply s.audience (s.stage.facing d).working l w == .revealing) := by rw [hstage]; rfl
    rw [hworking]
    by_cases hchoices : c.hasChoicesAt d.lineIndex = true
    · rw [if_pos hchoices]
      apply Stage.phase_eq_choicePending_iff.2
      rw [hpending]
      exact ⟨hactive, Conversation.hasChoicesAt_iff.1 hchoices⟩
    · rw [if_neg hchoices]
      rw [Conversation.hasChoicesAt_iff, not_not] at hchoices
      by_cases hreply : h.reply s.audience (s.stage.facing d).working l w = .revealing
      · rw [if_pos hreply]
        apply Stage.phase_eq_lineBusy_iff.2
        rw [hpending, hbusy, hreply]
        exact ⟨hactive, hchoices, rfl⟩
      · rw [if_neg hreply]
        apply Stage.phase_eq_playing_iff.2
        rw [hpending, hbusy]
        exact ⟨hactive, hchoices, beq_eq_false_iff_ne.2 hreply⟩

/-- Going on does not lead past choices. -/
theorem held_perform (hs : s.Consistent) (hphase : s.phase = .choicePending) (a : Action) :
    let t := s.perform h w a
    a = .stop ∨ a.enters t.answer = true ∨
      t.session.phase = .choicePending ∧ t.session.stage.pending = s.stage.pending ∧
        t.session.stage.conversation? = s.stage.conversation? ∧
        t.session.stage.lineIndex = s.stage.lineIndex := by
  intro t
  have hheld : s.phase ≠ .playing := by
    rw [hphase]
    exact Phase.noConfusion
  cases conduct_perform (h := h) (w := w) hs a with
  | leaves hnot ha hstage hevents =>
    rcases ha with hstop | ⟨-, hplaying⟩
    · exact .inl hstop
    · exact absurd hplaying hheld
  | stays hnot globals busy hstage hevents =>
    -- Neither the variables nor the view have a say in what is pending.
    have hpending := Stage.phase_eq_choicePending_iff.1 hphase
    refine .inr (.inr ?_)
    rw [phase, hstage]
    exact ⟨Stage.phase_eq_choicePending_iff.2 hpending, rfl, rfl, rfl⟩
  | arrives harrives p c l hleads hc hl before hbefore houtcome =>
    rcases harrives with henters | ⟨rfl, -⟩
    · exact .inr (.inl henters)
    · cases hleads with
      | advance hplaying hcurrent hi hline => exact absurd hplaying hheld

end Session

/-- Whatever a session has been through, its phase decides what each request to it
    comes to, and in which phase it ends, whatever the functions do and the view
    answers. -/
theorem phase_decides (h : Host σ) (globals : Variables) (w : σ) (past : List Action) (now : σ) :
    ((Session.new globals).run h w past).session.GoesByPhase h now := by
  let s := ((Session.new globals).run h w past).session
  have hs : s.Consistent := ((Session.consistent_new globals).run h w past).1
  refine ⟨?_, ?_, Session.perform_advance_of_ne_playing hs, ?_, ?_, ?_, rfl, ?_, ?_⟩
  · constructor
    · intro hanswer
      by_contra hphase
      rw [Session.perform_advance_of_ne_playing hs hphase] at hanswer
      cases hanswer
    · intro hphase
      exact (Session.perform_advance_of_playing hs hphase).1
  · intro hphase
    exact (Session.perform_advance_of_playing hs hphase).2
  · intro index
    constructor
    · intro hanswer hphase
      have hoffered := Session.answer_select_of_choicePending (h := h) (w := now) hs hphase index
      dsimp only at hoffered
      rw [hanswer] at hoffered
      split at hoffered
      · obtain ⟨selection, hselection⟩ := hoffered
        cases hselection
      · cases hoffered
    · intro hphase
      exact Session.answer_select_of_ne_choicePending hs hphase index
  · intro hphase index
    exact Session.answer_select_of_choicePending hs hphase index
  · exact ⟨Stage.phase_brought_out s.stage, rfl⟩
  · intro a t harrives
    exact Session.phase_of_arrives hs harrives
  · intro hphase a
    exact Session.held_perform hs hphase a

end Dialogue
