import Dialogue.Proofs.Consistency
import Dialogue.Proofs.Course

/-! # What listeners hear

    Everything that the view, the plugins and the observers hear of conversations
    and of the dialogue box is an orderly course of beats, each told to all whom
    it concerns before the next. A line that is displayed comes to the view
    first, then to each plugin, and then the view gets the choices behind the
    line.

    The proof goes move by move. `Audience.Hears` says that some events come to
    beats from one standing to another. It holds of the parts that moves are made
    of, which are clearing, stopping, announcing and displaying, and it composes.
    Stopping is where care is needed: it is part of three moves, and at the last
    line the box was cleared already when it happens.
-/

namespace Dialogue

variable {σ : Type}

/-! ### Beats as events -/

/-- Calls of functions, diagnostics and the log are no part of a course. -/
def Event.isCourse : Event → Bool
  | .called .. | .diagnosed .. | .logged _ => false
  | _ => true

/-- What observer `n` hears of conversations. -/
def Event.noticeTo? (n : Nat) : Event → Option (Option Conversation)
  | .started m c => if m = n then some (some c) else none
  | .ended m => if m = n then some none else none
  | _ => none

namespace Audience

/-- Tells a beat to everyone whom it concerns. -/
def tell (a : Audience) : Beat → List Event
  | .started c => a.tellObservers (.started · c)
  | .ended => a.tellObservers .ended
  | .shown c i d =>
    a.tellView (.lineShown · d) ++ a.tellPlugins (.pluginShown · c i) ++
      if (c.choicesAt i).isEmpty then [] else a.tellView (.choicesShown · (c.choicesAt i))
  | .cleared c i => a.tellView .cleared ++ a.tellPlugins (.pluginCleared · c i)

variable {a : Audience}

theorem filter_tell (b : Beat) : (a.tell b).filter Event.isCourse = a.tell b := by
  cases b with
  | started c => simp [tell, tellObservers, List.filter_map, Function.comp_def, Event.isCourse]
  | ended => simp [tell, tellObservers, List.filter_map, Function.comp_def, Event.isCourse]
  | shown c i d =>
    simp only [tell]
    split <;>
      simp [tellView, tellPlugins, List.filter_map, Function.comp_def, Event.isCourse]
  | cleared c i =>
    simp [tell, tellView, tellPlugins, List.filter_map, Function.comp_def, Event.isCourse]

/-- All that a display sends is the beat, and the log. -/
theorem filter_display (c : Conversation) (i : Nat) (d : DisplayedLine) :
    (a.display c i d).filter Event.isCourse = a.tell (.shown c i d) := by
  rw [← filter_tell]
  simp only [display, tell]
  split <;> simp [Event.isCourse]

/-! ### The notices to one observer -/

/-- Every observer hears the notice that is in a beat, once. -/
theorem filterMap_tell {n : Nat} (hn : n < a.observers) (b : Beat) :
    (a.tell b).filterMap (Event.noticeTo? n) = b.notice?.toList := by
  cases b with
  | started c => exact filterMap_tellObservers hn fun _ => rfl
  | ended => exact filterMap_tellObservers hn fun _ => rfl
  | shown c i d =>
    simp only [tell]
    split <;>
      simp [tellView, tellPlugins, List.filterMap_map, Function.comp_def, Event.noticeTo?,
        Beat.notice?]
  | cleared c i =>
    simp [tell, tellView, tellPlugins, List.filterMap_map, Function.comp_def, Event.noticeTo?,
      Beat.notice?]

end Audience

theorem Event.isCourse_of_isQuiet {e : Event} (he : e.isQuiet = true) : e.isCourse = false := by
  cases e <;> first | rfl | cases he

theorem Event.noticeTo?_eq_none {n : Nat} {e : Event} (he : e.isCourse = false) :
    e.noticeTo? n = none := by
  cases e <;> first | rfl | cases he

/-- Where the events of a course are those of beats, each observer hears the
    notices that are in the beats. -/
theorem Event.filterMap_noticeTo? {a : Audience} {n : Nat} (hn : n < a.observers)
    {events : List Event} {beats : List Beat}
    (hevents : events.filter Event.isCourse = beats.flatMap a.tell) :
    events.filterMap (Event.noticeTo? n) = beats.filterMap Beat.notice? := by
  have hcourse : events.filterMap (Event.noticeTo? n) =
      (events.filter Event.isCourse).filterMap (Event.noticeTo? n) := by
    rw [List.filterMap_filter]
    congr 1
    funext e
    cases he : e.isCourse with
    | true => rfl
    | false => exact Event.noticeTo?_eq_none he
  rw [hcourse, hevents, List.filterMap_flatMap, List.filterMap_eq_flatMap_toList]
  congr 1
  funext b
  exact Audience.filterMap_tell hn b

/-! ### What the parts of a move sound like -/

/-- For the course, the events come to beats that lead from one standing to another. -/
def Audience.Hears (a : Audience) (h : Host σ) (p : Standing) (events : List Event) (q : Standing) :
    Prop :=
  ∃ bs : List Beat, events.filter Event.isCourse = bs.flatMap a.tell ∧ Course h p bs q

namespace Audience

variable {a : Audience} {h : Host σ} {p q r : Standing} {events later : List Event}

theorem Hears.append (hfirst : a.Hears h p events q) (hlater : a.Hears h q later r) :
    a.Hears h p (events ++ later) r := by
  obtain ⟨bs, hbs, hcourse⟩ := hfirst
  obtain ⟨cs, hcs, hcourse'⟩ := hlater
  refine ⟨bs ++ cs, ?_, hcourse.append hcourse'⟩
  rw [List.filter_append, List.flatMap_append, hbs, hcs]

theorem hears_beat {b : Beat} (hevents : events.filter Event.isCourse = a.tell b)
    (hb : p.Step h b q) : a.Hears h p events q := by
  refine ⟨[b], ?_, .single hb⟩
  rw [hevents, List.flatMap_singleton]

theorem hears_nothing (hevents : ∀ e ∈ events, e.isCourse = false) : a.Hears h p events p := by
  refine ⟨[], ?_, .nil p⟩
  apply List.filter_eq_nil_iff.2
  intro e he
  rw [hevents e he]
  exact Bool.false_ne_true

theorem hears_quiet (hevents : ∀ e ∈ events, e.isQuiet = true) : a.Hears h p events p := by
  apply hears_nothing
  intro e he
  exact Event.isCourse_of_isQuiet (hevents e he)

variable {s : Stage} {c : Conversation}

theorem clear_eq_tell (hs : s.isAstray = false) :
    a.clear s = a.tell (.cleared s.conversation? s.lineIndex) := by
  rw [clear, Stage.faults_eq_nil hs, List.append_nil]
  rfl

theorem filter_clear (hs : s.isAstray = false) :
    (a.clear s).filter Event.isCourse = a.tell (.cleared s.conversation? s.lineIndex) := by
  rw [clear_eq_tell hs, filter_tell]

theorem isAstray_of_conversation? (hc : s.conversation? = some c) : s.isAstray = false := by
  simp [Stage.isAstray, hc]

theorem hears_clear (hc : s.conversation? = some c) (blank : Bool) :
    a.Hears h (.inside c (s.lineIndex + 1) blank) (a.clear s)
      (.inside c (s.lineIndex + 1) true) := by
  have hcleared := filter_clear (a := a) (isAstray_of_conversation? hc)
  rw [hc] at hcleared
  exact hears_beat hcleared (.clears c s.lineIndex blank)

/-- A stop within a conversation clears the box, whether or not it was cleared
    before, and ends the conversation. -/
theorem hears_stop (hc : s.conversation? = some c) (blank : Bool) :
    a.Hears h (.inside c (s.lineIndex + 1) blank) (a.stop s) .outside := by
  have hactive : s.current.isSome = true := by
    obtain ⟨i, hi, -⟩ := Stage.conversation?_eq_some_iff.1 hc
    rw [hi]
    rfl
  have hended : (Event.logged .ended :: a.tellObservers .ended).filter Event.isCourse =
      a.tell .ended := by
    rw [List.filter_cons_of_neg Bool.false_ne_true]
    exact filter_tell .ended
  rw [stop, hactive, if_pos rfl]
  exact (hears_clear hc blank).append (hears_beat hended (.ends c s.lineIndex))

/-- A stop outside of a conversation clears the box all the same. -/
theorem hears_stop_aside (hcurrent : s.current = none) (hline : s.lineIndex = 0) :
    a.Hears h .outside (a.stop s) .outside := by
  have hnone : s.conversation? = none := by
    rw [Stage.conversation?, hcurrent]
    rfl
  have hstray : s.isAstray = false := by
    rw [Stage.isAstray, hcurrent]
    rfl
  have hcleared := filter_clear (a := a) hstray
  rw [hnone, hline] at hcleared
  rw [stop, hcurrent, Option.isSome_none, if_neg Bool.false_ne_true, List.append_nil]
  exact hears_beat hcleared .aside

theorem hears_announce (hc : s.conversation? = some c) :
    a.Hears h .outside (a.announce s) (.inside c 0 true) := by
  have hstarted : (a.announce s).filter Event.isCourse = a.tell (.started c) := by
    rw [announce, hc]
    show (Event.logged (.starting c.name) :: _).filter Event.isCourse = _
    rw [List.filter_cons_of_neg Bool.false_ne_true]
    exact filter_tell (.started c)
  exact hears_beat hstarted (.begins c)

end Audience

namespace Stage

variable {h : Host σ} {a : Audience} {s : Stage} {w : σ} {c : Conversation}

theorem standing_eq_inside (hc : s.conversation? = some c) :
    s.standing = .inside c (s.lineIndex + 1) false := by
  rw [standing, hc]

theorem standing_eq_outside (hcurrent : s.current = none) : s.standing = .outside := by
  rw [standing, conversation?, hcurrent]
  rfl

/-- A display sends the calls of functions and reports of missing ones, which are
    no part of the course, and then the line. -/
theorem hears_display {l : Line} (hc : s.conversation? = some c) (hl : s.line? = some l) :
    a.Hears h (.inside c s.lineIndex true) (s.display h a w).events
      (s.display h a w).stage.standing := by
  rw [display_eq_displayLine hc hl]
  rw [line?_eq_of_conversation? hc] at hl
  have hstanding : (s.displayLine h a c s.lineIndex l w).stage.standing =
      .inside c (s.lineIndex + 1) false := standing_eq_inside hc
  rw [hstanding]
  unfold displayLine
  apply Audience.Hears.append
  · apply Audience.hears_nothing (p := .inside c s.lineIndex true)
    intro e he
    rcases List.mem_append.1 he with he | he
    · obtain ⟨f, -, rfl⟩ := List.mem_map.1 he
      rfl
    · obtain ⟨f, -, he⟩ := List.mem_flatMap.1 he
      exact Event.isCourse_of_isQuiet (Audience.isQuiet_of_mem_report he)
  · exact Audience.hears_beat (Audience.filter_display c s.lineIndex _)
      (.shows hl ⟨_, _, rfl⟩)

theorem hears_stop (hs : s.Consistent) : a.Hears h s.standing (a.stop s) .outside := by
  cases hcurrent : s.current with
  | none =>
    rw [standing_eq_outside hcurrent]
    exact Audience.hears_stop_aside hcurrent (hs.idle hcurrent).lineIndex
  | some i =>
    obtain ⟨c, l, d, hplays⟩ := hs.playing i hcurrent
    have hc := conversation?_eq_some_iff.2 ⟨i, hcurrent, hplays.conversation⟩
    rw [standing_eq_inside hc]
    exact Audience.hears_stop hc false

/-- A move from a consistent stage goes on with the course. -/
theorem Move.hears {o : Outcome σ} (hs : s.Consistent) (hmove : s.Move h a w o) :
    a.Hears h s.standing o.events o.stage.standing := by
  cases hmove with
  | stay globals busy events hbusy hquiet => exact Audience.hears_quiet hquiet
  | stop => exact hears_stop hs
  | next c hc hbusy hpending hline =>
    -- One clear, by the line that is left.
    obtain ⟨hnext, hl⟩ := next_line? hc hline
    rw [standing_eq_inside hc]
    exact (Audience.hears_clear hc false).append (hears_display hnext hl)
  | leave c hc hbusy hpending hline =>
    -- The stop finds the conversation still there, behind a box cleared already.
    have hclear : s.clear.conversation? = some c := hc
    rw [standing_eq_inside hc]
    exact (Audience.hears_clear hc false).append (Audience.hears_stop hclear true)
  | enter before set index hquiet hset hindex =>
    obtain ⟨hc, l, hl⟩ := s.enter_line? (hs.isCompiled hset hindex) hindex
    have hbefore := Audience.hears_quiet (a := a) (h := h) (p := s.standing) hquiet
    exact (hbefore.append ((hears_stop hs).append (Audience.hears_announce hc))).append
      (hears_display hc hl)

end Stage

/-! ### Runs -/

namespace Session

/-- A new session with these listeners. -/
def attended (globals : Variables) (a : Audience) : Session :=
  { new globals with audience := a }

theorem hears_run (h : Host σ) (globals : Variables) (a : Audience) (w : σ)
    {actions : List Action} (hactions : ∀ x ∈ actions, x.attends = false) :
    let t := (attended globals a).run h w actions
    t.session.Consistent ∧ a.Hears h .outside t.events t.session.stage.standing := by
  let P : Session → List Event → Prop := fun s past =>
    s.Consistent ∧ s.audience = a ∧ a.Hears h .outside past s.stage.standing
  have hfirst : P (attended globals a) [] :=
    ⟨⟨Stage.consistent_idle globals, Cache.sound_empty⟩, rfl, Audience.hears_nothing (by simp)⟩
  have hstep : ∀ s w past x, x.attends = false → P s past →
      P (s.perform h w x).session (past ++ (s.perform h w x).events) := by
    intro s w past x hx hpast
    obtain ⟨hs, rfl, hhears⟩ := hpast
    -- The listeners of the move are those of the run, since none was attached.
    have hfollows := follows_perform (h := h) (w := w) hs.cache hs.stage.isAstray_eq_false hx
    exact ⟨⟨(hfollows.move.consistent hs.stage).1, hfollows.sound⟩, hfollows.audience,
      hhears.append (hfollows.move.hears hs.stage)⟩
  obtain ⟨hs, -, hhears⟩ := run_induction (w := w) hstep hactions hfirst
  exact ⟨hs, hhears⟩

end Session

/-- What the listeners of a session hear of conversations and of the dialogue
    box, from the first request on, is an orderly course of beats, each told to
    all whom it concerns. Every observer hears the same notices, and the last of
    them is the beginning of a conversation unless the session is idle. -/
theorem orderly_run (h : Host σ) (globals : Variables) (a : Audience) (w : σ)
    {actions : List Action} (hactions : ∀ x ∈ actions, x.attends = false) :
    let t := (Session.attended globals a).run h w actions
    ∃ beats : List Beat, t.events.filter Event.isCourse = beats.flatMap a.tell ∧
      (∀ n < a.observers,
        t.events.filterMap (Event.noticeTo? n) = beats.filterMap Beat.notice?) ∧
      Orderly h beats t.session.stage ∧
      (t.session.phase = .idle ↔ t.session.stage.conversation? = none) := by
  intro t
  obtain ⟨hs, beats, hevents, hcourse⟩ := Session.hears_run h globals a w hactions
  have hidle := Stage.phase_eq_idle_iff.trans hs.stage.conversation?_eq_none_iff.symm
  refine ⟨beats, hevents, ?_, hcourse.orderly, hidle⟩
  intro n hn
  exact Event.filterMap_noticeTo? hn hevents

/-! A walk through two short conversations, with a choice after the second line of
    the first, and a stop both within a conversation and outside of one. -/

/-- The script of the walk. -/
def shortScript : Asset where
  name := []
  source := String.toList
    "\x7b\x7bConversationName(A)\x7d\x7d
X
Y
- Z -> B
\x7b\x7bConversationName(B)\x7d\x7d
W"

/-- A host without functions, whose view brings out each line at once. -/
def plainHost : Host Unit where
  functions := ∅
  reveal := fun _ _ w => (.complete, w)

/-- The requests of the walk. -/
def shortWalk : List Action := [.start (some shortScript) 0, .advance, .select 0, .stop, .stop]

/-- Two conversations begin on the walk, and both are over at its end. -/
theorem orderly_shortWalk :
    (∀ x ∈ shortWalk, x.attends = false) ∧
    ∃ beats : List Beat,
      (((Session.attended ∅ ⟨some [], 1, 1⟩).run plainHost () shortWalk).events.filter
        Event.isCourse) = beats.flatMap (Audience.tell ⟨some [], 1, 1⟩) ∧
      (beats.filterMap Beat.notice?).map (Option.map Conversation.name) =
        [some ['A'], none, some ['B'], none] := by
  have hactions : ∀ x ∈ shortWalk, x.attends = false := by simp [shortWalk, Action.attends]
  obtain ⟨beats, hevents, hnotices, -, -⟩ :=
    orderly_run plainHost ∅ ⟨some [], 1, 1⟩ () hactions
  refine ⟨hactions, beats, hevents, ?_⟩
  rw [← hnotices 0 Nat.zero_lt_one]
  decide +kernel

end Dialogue
