import Dialogue.Proofs.Phases
import Dialogue.Proofs.Reach

/-! # Playing a conversation to its end

    Once a conversation is entered, there are two requests that keep to it: to go on, and to
    take note that the view has brought out a line. The view may keep the session at any line
    for as long as it likes, the notes may come early, late or twice, and the request to go on
    may come at any time. How far a sequence of such requests comes is counted by the answers.

    What is true after `k` of them were followed is one invariant (`Session.HasGoneOn`). The
    session is at line `k`, or behind the last line, and of an end is heard only there. It
    never gets past the first choice, since the line in front of it has choices pending, and
    the last line is left for no other. From there nothing comes of any further request
    (`HasGoneOn.still`). Ahead of it only the view can keep the session
    (`HasGoneOn.phase_of_lt`), so that one who waits for the view gets there.

    Main result:
    - `plays_to_first_choice`: how far a conversation is played by going on in it, what is
      heard of its end, and where the session rests
-/

namespace Dialogue

variable {σ : Type}

/-! ### How far a conversation goes -/

/-- The number of the first line with choices behind it, or of all lines if there is none. -/
def Conversation.choicePoint (c : Conversation) : Nat :=
  (List.range c.lines.length).findIdx c.hasChoicesAt

namespace Conversation

variable {c : Conversation}

/-- There is no choice behind the conversation. -/
theorem choicePoint_le (c : Conversation) : c.choicePoint ≤ c.lines.length := by
  have hlength : c.choicePoint ≤ (List.range c.lines.length).length := List.findIdx_le_length
  rwa [List.length_range] at hlength

theorem choicesAt_of_lt_choicePoint {k : Nat} (hk : k < c.choicePoint) : c.choicesAt k = [] := by
  have hnone := List.not_of_lt_findIdx hk
  rw [List.getElem_range] at hnone
  by_contra hchoices
  rw [hasChoicesAt_iff.2 hchoices] at hnone
  cases hnone

theorem choicesAt_choicePoint (h : c.choicePoint < c.lines.length) :
    c.choicesAt c.choicePoint ≠ [] := by
  have hlength : c.choicePoint < (List.range c.lines.length).length := by
    rwa [List.length_range]
  have hsome : c.hasChoicesAt (List.range c.lines.length)[c.choicePoint] = true :=
    List.findIdx_getElem (w := hlength)
  rw [List.getElem_range] at hsome
  exact hasChoicesAt_iff.1 hsome

end Conversation

/-! ### What is heard of an end -/

/-- The event tells that a conversation is over. -/
def Event.isEnding : Event → Bool
  | .ended _ | .logged .ended => true
  | _ => false

/-- What is heard of the end of a conversation: the log notes it, and every observer hears of
    it once. -/
def Audience.ending (a : Audience) : List Event := .logged .ended :: a.tellObservers .ended

theorem Event.isEnding_of_isOfLine {e : Event} (he : e.isOfLine = true) : e.isEnding = false := by
  unfold isOfLine at he
  split at he <;> first | rfl | cases he

namespace Audience

variable {s : Stage}

theorem ending_clear (a : Audience) (s : Stage) : (a.clear s).filter Event.isEnding = [] := by
  unfold clear Stage.faults
  split <;> simp [tellView, tellPlugins, List.filter_map, Function.comp_def, Event.isEnding]

theorem ending_stop (a : Audience) {c : Conversation} (hc : s.conversation? = some c) :
    (a.stop s).filter Event.isEnding = a.ending := by
  have hactive : s.current.isSome = true := Option.isSome_iff_ne_none.2 (Stage.current_ne_none hc)
  rw [stop, List.filter_append, ending_clear, if_pos hactive]
  simp [ending, tellObservers, Event.isEnding]

end Audience

theorem Stage.ending_displayLine {h : Host σ} {a : Audience} (s : Stage) (c : Conversation)
    (index : Nat) (l : Line) (w : σ) :
    (s.displayLine h a c index l w).events.filter Event.isEnding = [] := by
  rw [List.filter_eq_nil_iff]
  intro e he
  rw [Event.isEnding_of_isOfLine (isOfLine_of_mem_displayLine he)]
  exact Bool.false_ne_true

/-! ### Going on -/

/-- Whether the request is made by one who just goes on: to the next line, or once the view
    has brought out the line. -/
def Action.goesOn : Action → Bool
  | .advance | .finishLine => true
  | _ => false

/-- Whether the request is to go on to the next line. -/
def Action.isAdvance : Action → Bool
  | .advance => true
  | _ => false

namespace Session

variable {h : Host σ} {s : Session} {w : σ} {a : Audience} {c : Conversation} {k : Nat}
  {past : List Event} {b : Action} {actions : List Action}

/-- While it is playing, a session lets hear of an end if it is at the last line. -/
theorem Consistent.ending_advance (hs : s.Consistent) (hphase : s.phase = .playing)
    (hc : s.stage.conversation? = some c) :
    (s.perform h w .advance).events.filter Event.isEnding =
      if s.stage.lineIndex + 1 < c.lines.length then [] else s.audience.ending := by
  obtain ⟨i, c', hcurrent, hi, hadvance⟩ := hs.advance_eq (h := h) (w := w) hphase
  have hc' : s.stage.conversation? = some c' := Stage.conversation?_eq_some_iff.2 ⟨i, hcurrent, hi⟩
  obtain rfl : c' = c := Option.some.inj (hc'.symm.trans hc)
  rw [Session.perform, hadvance]
  by_cases hline : s.stage.lineIndex + 1 < c'.lines.length
  · obtain ⟨c, l, hnext, hl⟩ := (LeadsTo.advance hphase hcurrent hi hline).line? hs
    rw [if_pos hline, if_pos hline, Stage.display_eq_displayLine hnext hl]
    show List.filter _ (_ ++ _) = _
    rw [List.filter_append, Audience.ending_clear, Stage.ending_displayLine]
    rfl
  · rw [if_neg hline, if_neg hline]
    have hcleared : s.stage.clear.conversation? = some c' := hc'
    show List.filter _ (_ ++ _) = _
    rw [List.filter_append, Audience.ending_clear, Audience.ending_stop _ hcleared]
    rfl

/-- Within conversation `c` the session has gone on `k` times before this audience, and this is
    what was heard since it entered. It is at line `k`, or it is idle behind the last line, and
    then its end was heard of. -/
structure HasGoneOn (s : Session) (a : Audience) (c : Conversation) (k : Nat)
    (past : List Event) : Prop where
  consistent : s.Consistent
  audience : s.audience = a
  le : k ≤ c.choicePoint
  place : if k < c.lines.length then s.stage.conversation? = some c ∧ s.stage.lineIndex = k
    else s.phase = .idle
  ending : past.filter Event.isEnding = if k < c.lines.length then [] else a.ending

namespace HasGoneOn

/-- Unless it is behind the last line, it is at a line, and the choices there are pending. -/
theorem place_of_lt (hs : s.HasGoneOn a c k past) (hk : k < c.lines.length) :
    s.stage.conversation? = some c ∧ s.stage.lineIndex = k ∧ s.stage.pending = c.choicesAt k := by
  have hplace := hs.place
  rw [if_pos hk] at hplace
  obtain ⟨hc, hline⟩ := hplace
  obtain ⟨i, l, d, hplays⟩ := hs.consistent.stage.exists_plays hc
  refine ⟨hc, hline, ?_⟩
  rw [hplays.pending, hline]

/-- Ahead of the first choice, it can only be kept by the view. -/
theorem phase_of_lt (hs : s.HasGoneOn a c k past) (hk : k < c.choicePoint) :
    s.phase = .playing ∨ s.phase = .lineBusy := by
  obtain ⟨hc, -, hpending⟩ := hs.place_of_lt (Nat.lt_of_lt_of_le hk c.choicePoint_le)
  have hactive : s.stage.current ≠ none := Stage.current_ne_none hc
  -- Nothing is pending, so that it depends on the view alone.
  rw [Conversation.choicesAt_of_lt_choicePoint hk] at hpending
  cases hbusy : s.stage.busy with
  | false => exact .inl (Stage.phase_eq_playing_iff.2 ⟨hactive, hpending, hbusy⟩)
  | true => exact .inr (Stage.phase_eq_lineBusy_iff.2 ⟨hactive, hpending, hbusy⟩)

/-- At the first choice, it waits for a selection. Without any, it is idle. -/
theorem phase_of_eq (hs : s.HasGoneOn a c c.choicePoint past) :
    s.phase = if c.choicePoint < c.lines.length then .choicePending else .idle := by
  by_cases hline : c.choicePoint < c.lines.length
  · rw [if_pos hline]
    obtain ⟨-, -, hpending⟩ := hs.place_of_lt hline
    apply hs.consistent.phase_eq_choicePending_iff.2
    rw [hpending]
    exact Conversation.choicesAt_choicePoint hline
  · have hplace := hs.place
    rw [if_neg hline] at hplace ⊢
    exact hplace

/-- The session does not play the line of the first choice. -/
theorem lt_of_playing (hs : s.HasGoneOn a c k past) (hphase : s.phase = .playing) :
    k < c.choicePoint := by
  by_contra hk
  obtain rfl : k = c.choicePoint := Nat.le_antisymm hs.le (Nat.le_of_not_lt hk)
  rw [hs.phase_of_eq] at hphase
  split at hphase <;> cases hphase

/-- While it is playing, the session goes on once more. -/
theorem advance (hs : s.HasGoneOn a c k past) (hphase : s.phase = .playing) :
    let t := s.perform h w .advance
    t.answer = .advanced true ∧ t.session.HasGoneOn a c (k + 1) (past ++ t.events) := by
  intro t
  have hk : k < c.choicePoint := hs.lt_of_playing hphase
  have hline : k < c.lines.length := Nat.lt_of_lt_of_le hk c.choicePoint_le
  obtain ⟨hconsistent, rfl, -, hplace, hending⟩ := hs
  rw [if_pos hline] at hplace hending
  obtain ⟨hc, rfl⟩ := hplace
  obtain ⟨hanswer, c', hc', hnext⟩ :=
    perform_advance_of_playing (h := h) (w := w) hconsistent hphase
  obtain rfl : c' = c := Option.some.inj (hc'.symm.trans hc)
  have hfollows := follows_perform (h := h) (w := w) hconsistent.cache
    hconsistent.stage.isAstray_eq_false (a := .advance) rfl
  -- Where the next line is there the session is at it, and otherwise it has stopped.
  refine ⟨hanswer, (hconsistent.perform h w .advance).1, hfollows.audience, hk, hnext, ?_⟩
  rw [List.filter_append, hending, hconsistent.ending_advance hphase hc]
  rfl

/-- A request to go on that is not followed changes nothing. -/
theorem perform_of_ne_playing (hs : s.HasGoneOn a c k past) (hb : b.goesOn = true)
    (hphase : b = .advance → s.phase ≠ .playing) :
    let t := s.perform h w b
    t.answer ≠ .advanced true ∧ t.events = [] ∧ t.session.HasGoneOn a c k past := by
  cases b with
  | advance =>
    rw [perform_advance_of_ne_playing hs.consistent (hphase rfl)]
    exact ⟨by simp [rest], rfl, hs⟩
  | finishLine =>
    refine ⟨Answer.noConfusion, rfl, (hs.consistent.perform h w .finishLine).1, hs.audience,
      hs.le, ?_, hs.ending⟩
    -- The place in the conversation does not depend on the view.
    have hplace := hs.place
    rw [phase, Stage.phase_eq_idle_iff] at hplace ⊢
    exact hplace
  | _ => cases hb

/-- What was heard grows, and the session goes on if it says so. -/
theorem perform (hs : s.HasGoneOn a c k past) (hb : b.goesOn = true) :
    let t := s.perform h w b
    t.session.HasGoneOn a c (k + [t.answer].count (.advanced true)) (past ++ t.events) := by
  intro t
  by_cases hplaying : b = .advance ∧ s.phase = .playing
  · obtain ⟨rfl, hphase⟩ := hplaying
    obtain ⟨hanswer, hnext⟩ := hs.advance (h := h) (w := w) hphase
    rw [show t.answer = .advanced true from hanswer]
    exact hnext
  · obtain ⟨hanswer, hevents, hnext⟩ :=
      hs.perform_of_ne_playing (h := h) (w := w) hb (fun ha hphase => hplaying ⟨ha, hphase⟩)
    rw [show t.events = [] from hevents, List.append_nil, List.count_singleton,
      if_neg (by simpa using hanswer)]
    exact hnext

theorem run (hs : s.HasGoneOn a c k past) (hactions : ∀ b ∈ actions, b.goesOn = true) :
    let u := s.run h w actions
    u.session.HasGoneOn a c (k + u.answer.count (.advanced true)) (past ++ u.events) := by
  -- The first request moves on the count and the past that the others begin with.
  induction actions generalizing s w k past with
  | nil =>
    show s.HasGoneOn a c k (past ++ [])
    rwa [List.append_nil]
  | cons b rest ih =>
    have hfirst := hs.perform (h := h) (w := w) (hactions b List.mem_cons_self)
    have hlater := ih (w := (s.perform h w b).world) hfirst
      (fun d hd => hactions d (List.mem_cons_of_mem b hd))
    dsimp only at hlater
    rw [List.append_assoc, Nat.add_assoc, ← List.count_append] at hlater
    exact hlater

/-- From where it has gone as far as it can, nothing is heard of it any more. -/
theorem still (hs : s.HasGoneOn a c c.choicePoint past)
    (hactions : ∀ b ∈ actions, b.goesOn = true) :
    let u := s.run h w actions
    u.events = [] ∧ .advanced true ∉ u.answer ∧ u.session.HasGoneOn a c c.choicePoint past := by
  induction actions generalizing s w with
  | nil => exact ⟨rfl, List.not_mem_nil, hs⟩
  | cons b rest ih =>
    have hphase : s.phase ≠ .playing := fun hphase => Nat.lt_irrefl _ (hs.lt_of_playing hphase)
    obtain ⟨hanswer, hevents, hnext⟩ := hs.perform_of_ne_playing (h := h) (w := w)
      (hactions b List.mem_cons_self) (fun _ => hphase)
    obtain ⟨hlater, hanswers, hend⟩ := ih (w := (s.perform h w b).world) hnext
      (fun d hd => hactions d (List.mem_cons_of_mem b hd))
    refine ⟨?_, ?_, hend⟩
    · show (s.perform h w b).events ++ _ = []
      rw [hevents, List.nil_append]
      exact hlater
    · show _ ∉ (s.perform h w b).answer :: _
      rw [List.mem_cons, not_or]
      exact ⟨hanswer.symm, hanswers⟩

end HasGoneOn

/-! ### Waiting for the view -/

/-- No request to go on comes while the view is still bringing out a line. -/
def Acknowledges (h : Host σ) : Session → σ → List Action → Prop
  | _, _, [] => True
  | s, w, a :: rest =>
    let t := s.perform h w a
    (a = .advance → s.phase ≠ .lineBusy) ∧ Acknowledges h t.session t.world rest

/-- Who notes each line that is brought out waits for the view. -/
theorem acknowledges_rounds (h : Host σ) (s : Session) (w : σ) (m : Nat) :
    s.Acknowledges h w (List.replicate m [.finishLine, .advance]).flatten := by
  induction m generalizing s w with
  | zero => trivial
  | succ m ih =>
    rw [List.replicate_succ, List.flatten_cons]
    refine ⟨Action.noConfusion, ?_, ih _ _⟩
    intro _ hphase
    have hbusy : false = true := (Stage.phase_eq_lineBusy_iff.1 hphase).2.2
    cases hbusy

/-- A session that is not kept by the view goes on with each request, up to the first choice. -/
theorem HasGoneOn.count_of_acknowledges (hs : s.HasGoneOn a c k past)
    (hactions : ∀ b ∈ actions, b.goesOn = true) (hwaits : s.Acknowledges h w actions) :
    k + (s.run h w actions).answer.count (.advanced true) =
      min (k + actions.countP Action.isAdvance) c.choicePoint := by
  induction actions generalizing s w k past with
  | nil => exact (Nat.min_eq_left hs.le).symm
  | cons b rest ih =>
    -- Ahead of the first choice every request to go on is followed, and there none is.
    rcases Nat.lt_or_eq_of_le hs.le with hk | rfl
    · have hrest : ∀ d ∈ rest, d.goesOn = true :=
        fun d hd => hactions d (List.mem_cons_of_mem b hd)
      obtain ⟨hready, hwaits⟩ := hwaits
      rw [Session.run, List.count_cons, List.countP_cons]
      cases b with
      | advance =>
        have hphase : s.phase = .playing := (hs.phase_of_lt hk).resolve_right (hready rfl)
        obtain ⟨hanswer, hnext⟩ := hs.advance (h := h) (w := w) hphase
        have hlater := ih hnext hrest hwaits
        have hadvance : Action.isAdvance .advance = true := rfl
        rw [hanswer, if_pos (beq_self_eq_true _), if_pos hadvance]
        omega
      | finishLine =>
        obtain ⟨-, -, hnext⟩ := hs.perform_of_ne_playing (h := h) (w := w)
          (hactions .finishLine List.mem_cons_self) Action.noConfusion
        exact ih hnext hrest hwaits
      | _ => cases hactions _ List.mem_cons_self
    · obtain ⟨-, hanswer, -⟩ := hs.still (h := h) (w := w) hactions
      rw [List.count_eq_zero.2 hanswer]
      omega

/-- Where a conversation is entered, the session has not gone on yet. -/
theorem hasGoneOn_of_enters (hs : s.Consistent)
    (henters : b.enters (s.perform h w b).answer = true)
    (hc : (s.perform h w b).session.stage.conversation? = some c) :
    (s.perform h w b).session.HasGoneOn s.audience c 0 [] := by
  have hconsistent := (hs.perform h w b).1
  obtain ⟨i, l, d, hplays⟩ := hconsistent.stage.exists_plays hc
  obtain ⟨p, c', l', hleads, hat, -⟩ := phase_of_arrives (h := h) (w := w) hs (.inl henters)
  have hattends : b.attends = false := by cases hleads <;> rfl
  have hfirst : (s.perform h w b).session.stage.lineIndex = 0 := by
    rw [hat.lineIndex]
    cases hleads with
    | advance => cases henters
    | _ => rfl
  have hline : 0 < c.lines.length := by
    have hhere := (List.getElem?_eq_some_iff.1 hplays.line).1
    omega
  refine ⟨hconsistent, ?_, Nat.zero_le _, ?_, ?_⟩
  · exact (follows_perform hs.cache hs.stage.isAstray_eq_false hattends).audience
  · rw [if_pos hline]
    exact ⟨hc, hfirst⟩
  · rw [if_pos hline]
    rfl

end Session

/-- How far it comes to go on in a conversation that was entered, whatever the session has been
    through, the functions do and the view answers. Let the conversation have `n` lines, and
    let the first choices stand behind line `p`, with `p = n` if there are none. A sequence of
    requests to go on, and of notes that the view has brought out a line, is followed `k ≤ p`
    times. The session is at line `k` then, or idle behind the last line, and of an end is
    heard once in the latter case and else never. From `k = p` on the session waits for a
    selection, or is idle if there is none to make, and nothing more is heard. And this is
    reached by going on often enough and never before the view is ready. -/
theorem plays_to_first_choice (h : Host σ) (globals : Variables) (w : σ) (past : List Action)
    (now : σ) (entry : Action) (c : Conversation) :
    let s := ((Session.new globals).run h w past).session
    let t := s.perform h now entry
    let n := c.lines.length
    let p := c.choicePoint
    entry.enters t.answer = true → t.session.stage.conversation? = some c →
      (∀ actions : List Action, (∀ b ∈ actions, b.goesOn = true) →
        let u := t.session.run h t.world actions
        let k := u.answer.count (.advanced true)
        k ≤ p ∧
        (if k < n then u.session.stage.conversation? = some c ∧ u.session.stage.lineIndex = k
          else u.session.phase = .idle) ∧
        u.events.filter Event.isEnding = (if k < n then [] else s.audience.ending) ∧
        (k = p → u.session.phase = (if p < n then .choicePending else .idle) ∧
          ∀ later : List Action, (∀ b ∈ later, b.goesOn = true) →
            let v := u.session.run h u.world later
            v.events = [] ∧ .advanced true ∉ v.answer ∧ v.session.phase = u.session.phase) ∧
        (t.session.Acknowledges h t.world actions → k = min (actions.countP Action.isAdvance) p)) ∧
      ∀ m, t.session.Acknowledges h t.world (List.replicate m [.finishLine, .advance]).flatten := by
  intro s t n p henters hc
  have hs : s.Consistent := ((Session.consistent_new globals).run h w past).1
  have hentered := Session.hasGoneOn_of_enters hs henters hc
  refine ⟨?_, fun m => Session.acknowledges_rounds h t.session t.world m⟩
  intro actions hactions u k
  have hend : u.session.HasGoneOn s.audience c k u.events := by
    have hrun := hentered.run (h := h) (w := t.world) hactions
    dsimp only at hrun
    rwa [Nat.zero_add, List.nil_append] at hrun
  refine ⟨hend.le, hend.place, hend.ending, ?_, ?_⟩
  · intro hk
    rw [hk] at hend
    refine ⟨hend.phase_of_eq, ?_⟩
    intro later hlater
    obtain ⟨hevents, hanswer, hstill⟩ := hend.still (h := h) (w := u.world) hlater
    exact ⟨hevents, hanswer, hstill.phase_of_eq.trans hend.phase_of_eq.symm⟩
  · intro hwaits
    have hcount := hentered.count_of_acknowledges hactions hwaits
    rwa [Nat.zero_add, Nat.zero_add] at hcount

/-- The view takes its time with the first of three lines, and the second has a choice. However
    it is gone on in their conversation, the second line is the last one. -/
theorem plays_cutOffScript :
    let s := ((Session.new ∅).run fitfulHost 0 [.setView (some []), .addObserver]).session
    let t := s.perform fitfulHost 0 (.start (some cutOffScript) 0)
    t.session.phase = .lineBusy ∧
    (∀ actions : List Action, (∀ b ∈ actions, b.goesOn = true) →
      let u := t.session.run fitfulHost t.world actions
      let k := u.answer.count (.advanced true)
      k ≤ 1 ∧ u.session.stage.lineIndex = k ∧ u.events.filter Event.isEnding = [] ∧
        (k = 1 → u.session.phase = .choicePending)) ∧
    let hurried : List Action := [.advance, .finishLine, .advance, .finishLine, .advance]
    let u := t.session.run fitfulHost t.world hurried
    u.answer = [.advanced false, .done, .advanced true, .done, .advanced false] ∧
      u.session.phase = .choicePending := by
  intro s t
  let line : Text → Line := fun text => ⟨[], ⟨text, []⟩, none⟩
  let c : Conversation :=
    ⟨['A'], [line ['X'], line ['Y'], line ['Z']], [(⟨"Again".toList, ['A']⟩, 1)]⟩
  have hstarted : (Action.start (some cutOffScript) 0).enters t.answer = true := by decide +kernel
  have hc : t.session.stage.conversation? = some c := by decide +kernel
  have hpoint : c.choicePoint = 1 := by decide +kernel
  obtain ⟨hplays, -⟩ := plays_to_first_choice fitfulHost ∅ 0 [.setView (some []), .addObserver] 0
    (.start (some cutOffScript) 0) c hstarted hc
  refine ⟨by decide +kernel, ?_, ?_⟩
  · intro actions hactions u k
    obtain ⟨hle, hplace, hending, hrest, -⟩ := hplays actions hactions
    rw [hpoint] at hle hrest
    have hline : k < c.lines.length := Nat.lt_of_le_of_lt hle (by decide)
    rw [if_pos hline] at hplace hending
    exact ⟨hle, hplace.2, hending, fun hk => (hrest hk).1⟩
  · intro hurried u
    have hanswer : u.answer = [.advanced false, .done, .advanced true, .done, .advanced false] := by
      decide +kernel
    obtain ⟨-, -, -, hrest, -⟩ := hplays hurried (by simp [hurried, Action.goesOn])
    rw [show (t.session.run fitfulHost t.world hurried).answer = _ from hanswer, hpoint] at hrest
    exact ⟨hanswer, (hrest rfl).1⟩

end Dialogue
