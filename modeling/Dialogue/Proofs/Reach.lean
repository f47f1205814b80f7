import Dialogue.Proofs.Consistency

/-! # Lines within reach

    A line is within reach if no choice stands behind an earlier line of its
    conversation (`Conversation.Reaches`). These are the lines that can be displayed.
    What a script says below a choice is never shown, except for the choices behind
    the same line and for what comes after the next header.

    No other line is ever displayed, whatever a session is asked for: a conversation
    is entered at its first line, and a line with choices is only left for another
    conversation, since the choices stay pending until one of them is followed. The
    invariant is `Stage.InReach`, kept by each move.

    All lines within reach are displayed, one after the other, by starting the
    conversation and going on (`Action.walk`). Where the view is still bringing out a
    line, it is enough to take note that it has.
-/

namespace Dialogue

variable {σ : Type}

/-- The conversation has line `j`, and no choice stands behind an earlier line. -/
structure Conversation.Reaches (c : Conversation) (j : Nat) : Prop where
  line : j < c.lines.length
  choices : ∀ p ∈ c.choices, j ≤ p.2

namespace Conversation

variable {c : Conversation} {i j : Nat}

theorem Reaches.choicesAt_eq_nil (h : c.Reaches j) (hij : i < j) : c.choicesAt i = [] := by
  rw [List.eq_nil_iff_forall_not_mem]
  intro choice hchoice
  have hle := h.choices _ (mem_choicesAt.1 hchoice)
  have hlt : i < i := Nat.lt_of_lt_of_le hij hle
  omega

theorem Reaches.of_le (h : c.Reaches j) (hij : i ≤ j) : c.Reaches i where
  line := Nat.lt_of_le_of_lt hij h.line
  choices := by
    intro p hp
    exact Nat.le_trans hij (h.choices p hp)

/-- A line without choices lets through to the next one. -/
theorem Reaches.succ (h : c.Reaches j) (hnone : c.choicesAt j = [])
    (hline : j + 1 < c.lines.length) : c.Reaches (j + 1) where
  line := hline
  choices := by
    intro p hp
    have hle := h.choices p hp
    have hne : p.2 ≠ j := by
      intro heq
      have hmem : p.1 ∈ c.choicesAt j := mem_choicesAt.2 (heq ▸ hp)
      rw [hnone] at hmem
      cases hmem
    omega

end Conversation

/-! ### What a plugin is shown -/

/-- The conversation and the line that plugin `n` gets. -/
def Event.shownTo? (n : Nat) : Event → Option (Conversation × Nat)
  | .pluginShown m c j => if m = n then some (c, j) else none
  | _ => none

theorem Event.mem_shownTo?_iff {n : Nat} {events : List Event} {c : Conversation} {j : Nat} :
    (c, j) ∈ events.filterMap (shownTo? n) ↔ .pluginShown n c j ∈ events := by
  rw [List.mem_filterMap]
  constructor
  · rintro ⟨e, he, hshown⟩
    cases e with
    | pluginShown m c' j' =>
      by_cases hm : m = n
      · simp only [shownTo?, if_pos hm, Option.some.injEq, Prod.mk.injEq] at hshown
        obtain ⟨rfl, rfl⟩ := hshown
        exact hm ▸ he
      · simp [shownTo?, hm] at hshown
    | _ => cases hshown
  · intro h
    exact ⟨_, h, by simp [shownTo?]⟩

theorem Event.shownTo?_of_isQuiet {n : Nat} {events : List Event}
    (h : ∀ e ∈ events, e.isQuiet = true) : events.filterMap (shownTo? n) = [] := by
  rw [List.filterMap_eq_nil_iff]
  intro e he
  have hquiet := h e he
  cases e <;> first | rfl | cases hquiet

namespace Audience

variable {a : Audience} {s : Stage} (n : Nat)

theorem shown_clear (a : Audience) (s : Stage) :
    (a.clear s).filterMap (Event.shownTo? n) = [] := by
  unfold clear Stage.faults
  split <;> simp [tellView, tellPlugins, List.filterMap_map, Function.comp_def, Event.shownTo?]

theorem shown_stop (a : Audience) (s : Stage) :
    (a.stop s).filterMap (Event.shownTo? n) = [] := by
  rw [stop, List.filterMap_append, shown_clear]
  split <;> simp [tellObservers, Event.shownTo?]

theorem shown_announce (a : Audience) (s : Stage) :
    (a.announce s).filterMap (Event.shownTo? n) = [] := by
  unfold announce
  split <;> simp [tellObservers, Event.shownTo?]

theorem shown_tellPlugins (a : Audience) (c : Conversation) (j : Nat) :
    (a.tellPlugins (.pluginShown · c j)).filterMap (Event.shownTo? n) =
      if n < a.plugins then [(c, j)] else [] := by
  by_cases hn : n < a.plugins
  · rw [if_pos hn]
    exact Event.filterMap_map_range hn fun _ => rfl
  · rw [if_neg hn, List.filterMap_eq_nil_iff]
    intro e he
    obtain ⟨m, hm, rfl⟩ := List.mem_map.1 he
    have hlt := List.mem_range.1 hm
    have hne : m ≠ n := by omega
    simp [Event.shownTo?, hne]

theorem shown_display (a : Audience) (c : Conversation) (j : Nat) (d : DisplayedLine) :
    (a.display c j d).filterMap (Event.shownTo? n) = if n < a.plugins then [(c, j)] else [] := by
  have hview : ∀ e : Text → Event, (∀ v, Event.shownTo? n (e v) = none) →
      (a.tellView e).filterMap (Event.shownTo? n) = [] := by
    intro e he
    simp [tellView, he]
  have hline := hview (.lineShown · d) fun _ => rfl
  have hchoices := hview (.choicesShown · (c.choicesAt j)) fun _ => rfl
  have hoffers : (if (c.choicesAt j).isEmpty then []
      else Event.logged (.waiting (c.choicesAt j).length) ::
        a.tellView (.choicesShown · (c.choicesAt j))).filterMap (Event.shownTo? n) = [] := by
    split
    · rfl
    · rw [List.filterMap_cons_none rfl, hchoices]
  unfold display
  rw [List.filterMap_append, List.filterMap_append, shown_tellPlugins,
    List.filterMap_cons_none rfl, hline, hoffers, List.nil_append, List.append_nil]

end Audience

namespace Stage

variable {h : Host σ} {a : Audience} {s : Stage} {w : σ} {c : Conversation} {l : Line}

/-- Of a display each plugin gets the line, once. -/
theorem shown_display (n : Nat) (hc : s.conversation? = some c) (hl : s.line? = some l) :
    (s.display h a w).events.filterMap (Event.shownTo? n) =
      if n < a.plugins then [(c, s.lineIndex)] else [] := by
  have hcalled : ∀ (called : List Text) (scene : Scene),
      (called.map (Event.called · scene)).filterMap (Event.shownTo? n) = [] := by
    intro called scene
    simp [List.filterMap_map, Function.comp_def, Event.shownTo?]
  have hmissing : ∀ missing : List Text, (missing.flatMap fun f =>
      a.report (.missingFunction f s.lineIndex c.name)).filterMap (Event.shownTo? n) = [] := by
    intro missing
    apply Event.shownTo?_of_isQuiet
    intro e he
    obtain ⟨f, -, he⟩ := List.mem_flatMap.1 he
    exact Audience.isQuiet_of_mem_report he
  rw [display_eq_displayLine hc hl]
  unfold displayLine
  dsimp only
  rw [List.filterMap_append, List.filterMap_append, hcalled, hmissing, Audience.shown_display]
  rfl

/-- Line `j` of the conversation is in the dialogue box, with whatever text. -/
structure Shows (s : Stage) (c : Conversation) (j : Nat) : Prop where
  conversation : s.conversation? = some c
  line : s.lineIndex = j
  box : ∃ l d, c.lines[j]? = some l ∧ s.shown = some d ∧ d.speaker = l.speaker ∧
    d.image = l.image

/-- Between requests the box holds the line that is played. -/
theorem Consistent.shows (hs : s.Consistent) (hc : s.conversation? = some c) :
    s.Shows c s.lineIndex := by
  obtain ⟨i, l, d, hplays⟩ := hs.exists_plays hc
  exact ⟨hc, rfl, l, d, hplays.line, hplays.shown, hplays.speaker, hplays.image⟩

/-! ### Nothing else is shown -/

/-- The line that is played is within reach. -/
def InReach (s : Stage) : Prop := ∀ c, s.conversation? = some c → c.Reaches s.lineIndex

theorem inReach_of_current_eq_none (hcurrent : s.current = none) : s.InReach := by
  intro c hc
  rw [conversation?, hcurrent] at hc
  cases hc

/-- While no choice is pending, nothing keeps from the next line. -/
theorem InReach.next (hreach : s.InReach) (hs : s.Consistent) (hc : s.conversation? = some c)
    (hpending : s.pending = []) (hline : s.lineIndex + 1 < c.lines.length) :
    c.Reaches (s.lineIndex + 1) := by
  -- Those pending are those behind the line.
  obtain ⟨i, l, d, hplays⟩ := hs.exists_plays hc
  have hnone : c.choicesAt s.lineIndex = [] := hplays.pending.symm.trans hpending
  exact (hreach c hc).succ hnone hline

/-- A display stays at the line that it displays. -/
theorem place_display (hc : s.conversation? = some c) (hl : s.line? = some l) :
    (s.display h a w).stage.conversation? = some c ∧
      (s.display h a w).stage.lineIndex = s.lineIndex := by
  rw [display_eq_displayLine hc hl]
  exact ⟨hc, rfl⟩

theorem inReach_display (n : Nat) (hc : s.conversation? = some c) (hl : s.line? = some l)
    (hreach : c.Reaches s.lineIndex) :
    (s.display h a w).stage.InReach ∧
      ∀ p ∈ (s.display h a w).events.filterMap (Event.shownTo? n), p.1.Reaches p.2 := by
  obtain ⟨hplace, hline⟩ := place_display (h := h) (a := a) (w := w) hc hl
  refine ⟨?_, ?_⟩
  · intro c' hc'
    have hsame : c' = c := Option.some.inj (hc'.symm.trans hplace)
    rw [hsame, hline]
    exact hreach
  · rw [shown_display n hc hl]
    intro p hp
    split at hp
    · rw [List.mem_singleton.1 hp]
      exact hreach
    · cases hp

/-- A move from a line within reach ends on one, and shows no other. -/
theorem Move.inReach (n : Nat) {o : Outcome σ} (hs : s.Consistent) (hreach : s.InReach)
    (hmove : s.Move h a w o) :
    o.stage.InReach ∧ ∀ p ∈ o.events.filterMap (Event.shownTo? n), p.1.Reaches p.2 := by
  cases hmove with
  | stay globals busy events hbusy hquiet =>
    refine ⟨hreach, ?_⟩
    rw [Event.shownTo?_of_isQuiet hquiet]
    simp
  | stop =>
    refine ⟨inReach_of_current_eq_none rfl, ?_⟩
    rw [Audience.shown_stop]
    simp
  | next c hc hbusy hpending hline =>
    have hnext := hreach.next hs hc hpending hline
    obtain ⟨hc, hl⟩ := next_line? hc hline
    obtain ⟨hstage, hshown⟩ := inReach_display (h := h) (a := a) (w := w) n hc hl hnext
    refine ⟨hstage, ?_⟩
    rw [Outcome.after, List.filterMap_append, Audience.shown_clear]
    exact hshown
  | leave c hc hbusy hpending hline =>
    refine ⟨inReach_of_current_eq_none rfl, ?_⟩
    rw [List.filterMap_append, Audience.shown_clear, Audience.shown_stop]
    simp
  | enter before set index hquiet hset hindex =>
    -- No choice stands before the first line.
    obtain ⟨hc, l, hl⟩ := s.enter_line? (hs.isCompiled hset hindex) hindex
    have hfirst : set[index].Reaches 0 := by
      rw [line?_eq_of_conversation? hc] at hl
      exact ⟨(List.getElem?_eq_some_iff.1 hl).1, fun p _ => Nat.zero_le p.2⟩
    obtain ⟨hstage, hshown⟩ := inReach_display (h := h) (a := a) (w := w) n hc hl hfirst
    refine ⟨hstage, ?_⟩
    rw [Outcome.after, List.filterMap_append, List.filterMap_append, List.filterMap_append,
      Event.shownTo?_of_isQuiet hquiet, Audience.shown_stop, Audience.shown_announce]
    exact hshown

end Stage

namespace Session

variable {h : Host σ} {s : Session} {w : σ}

/-- Whatever is asked of a session, it stays at lines within reach, and shows no
    others. -/
theorem inReach_run (n : Nat) (hs : s.Consistent) (hreach : s.stage.InReach)
    (actions : List Action) :
    (s.run h w actions).session.stage.InReach ∧
      ∀ p ∈ (s.run h w actions).events.filterMap (Event.shownTo? n), p.1.Reaches p.2 := by
  let P : Session → List Event → Prop := fun s past =>
    s.Consistent ∧ s.stage.InReach ∧ ∀ p ∈ past.filterMap (Event.shownTo? n), p.1.Reaches p.2
  have hfirst : P s [] := ⟨hs, hreach, by simp⟩
  have hstep : ∀ s w past a, True → P s past →
      P (s.perform h w a).session (past ++ (s.perform h w a).events) := by
    intro s w past a _ hpast
    obtain ⟨hs, hreach, hshown⟩ := hpast
    have hmove := (move_perform (h := h) (w := w) hs.cache hs.stage.isAstray_eq_false a).1
    obtain ⟨hnext, hlater⟩ := hmove.inReach n hs.stage hreach
    refine ⟨(hs.perform h w a).1, hnext, ?_⟩
    intro p hp
    rw [List.filterMap_append] at hp
    rcases List.mem_append.1 hp with hp | hp
    · exact hshown p hp
    · exact hlater p hp
  obtain ⟨-, hend, hshown⟩ := run_induction (w := w) hstep (fun _ _ => trivial) hfirst
  exact ⟨hend, hshown⟩

end Session

/-! ### Everything within reach is shown -/

/-- Whether the request is one of playing: it starts or stops a conversation, or
    goes on within it. -/
def Action.plays : Action → Bool
  | .start .. | .stop | .jump _ | .advance | .finishLine | .select _ => true
  | _ => false

/-- Starts a conversation and goes on `k` times, each time after the view was done. -/
def Action.walk (asset : Asset) (index k : Nat) : List Action :=
  .start (some asset) index :: (List.replicate k [.finishLine, .advance]).flatten

theorem Action.plays_walk (asset : Asset) (index k : Nat) :
    ∀ a ∈ walk asset index k, a.plays = true := by
  intro a ha
  rcases List.mem_cons.1 ha with rfl | ha
  · rfl
  · obtain ⟨round, hround, ha⟩ := List.mem_flatten.1 ha
    rw [List.eq_of_mem_replicate hround] at ha
    rcases List.mem_pair.1 ha with rfl | rfl <;> rfl

namespace Session

/-- The session plays line `j` of the conversation before this audience. -/
structure PlaysAt (s : Session) (a : Audience) (c : Conversation) (j : Nat) : Prop where
  consistent : s.Consistent
  audience : s.audience = a
  conversation : s.stage.conversation? = some c
  line : s.stage.lineIndex = j

variable {h : Host σ} {s : Session} {w : σ} {a : Audience} {i j : Nat} {c : Conversation}

theorem PlaysAt.shows (hs : s.PlaysAt a c j) : s.stage.Shows c j := by
  have hshows := hs.consistent.stage.shows hs.conversation
  rw [hs.line] at hshows
  exact hshows

theorem playsAt_start {asset : Asset} {set : List Conversation} (hs : s.Consistent)
    (hset : compile s.stage.globals asset.source = .ok set) (hc : set[i]? = some c) :
    let t := s.perform h w (.start (some asset) i)
    t.session.PlaysAt s.audience c 0 ∧
      ∀ n < s.audience.plugins, t.events.filterMap (Event.shownTo? n) = [(c, 0)] := by
  obtain ⟨hindex, hentry⟩ := List.getElem?_eq_some_iff.1 hc
  obtain ⟨hentered, l, hl⟩ := s.stage.enter_line? ⟨_, _, hset⟩ hindex
  rw [hentry] at hentered
  obtain ⟨hplace, hline⟩ :=
    Stage.place_display (h := h) (a := s.audience) (w := w) hentered hl
  have hquiet : ∀ e ∈ (s.cache.fetch asset s.stage.globals).notices.map Event.logged,
      e.isQuiet = true := fun _ he => Event.isQuiet_of_mem_logged he
  have hnext := (hs.perform h w (.start (some asset) i)).1
  -- The cache answers what the compiler does.
  obtain ⟨compiled, hcompiled, rfl⟩ := hs.cache.exists_fetch hset
  simp only [perform, start, hcompiled, if_pos hindex] at hnext ⊢
  refine ⟨⟨hnext, rfl, hplace, hline⟩, ?_⟩
  intro n hn
  show (_ ++ (_ ++ _ ++ ((s.stage.enter compiled.conversations i).display h s.audience w).events)
    ).filterMap _ = _
  rw [List.filterMap_append, List.filterMap_append, List.filterMap_append,
    Event.shownTo?_of_isQuiet hquiet, Audience.shown_stop, Audience.shown_announce,
    Stage.shown_display n hentered hl, if_pos hn]
  rfl

/-- One more line. -/
theorem PlaysAt.round (hs : s.PlaysAt a c j) (hreach : c.Reaches (j + 1)) :
    let t := s.run h w [.finishLine, .advance]
    t.session.PlaysAt a c (j + 1) ∧
      ∀ n < a.plugins, t.events.filterMap (Event.shownTo? n) = [(c, j + 1)] := by
  obtain ⟨hconsistent, rfl, hc, rfl⟩ := hs
  -- No choice stands behind the line that is played, so that none is pending.
  have hpending : s.stage.pending = [] := by
    obtain ⟨i, l, d, hplays⟩ := hconsistent.stage.exists_plays hc
    rw [hplays.pending]
    exact hreach.choicesAt_eq_nil (Nat.lt_succ_self _)
  obtain ⟨hnext, hl⟩ := Stage.next_line? hc hreach.line
  obtain ⟨hplace, hline⟩ :=
    Stage.place_display (h := h) (a := s.audience) (w := w) hnext hl
  let finished : Session := { s with stage := { s.stage with busy := false } }
  have hfree : ¬ (finished.stage.busy || !finished.stage.pending.isEmpty) = true := by
    simp [finished, hpending]
  have hactive : finished.stage.conversation? = some c := hc
  have hadvance : finished.advance h w = finished.follow true
      (s.audience.clear finished.stage) (s.stage.next.display h s.audience w) := by
    rw [advance, if_neg hfree, hactive]
    exact if_pos hreach.line
  have hend := (hconsistent.run h w [.finishLine, .advance]).1
  have hsession : (s.run h w [.finishLine, .advance]).session =
      (finished.advance h w).session := rfl
  have hevents : (s.run h w [.finishLine, .advance]).events =
      (finished.advance h w).events := List.append_nil _
  rw [hsession, hadvance] at hend
  dsimp only
  rw [hsession, hevents, hadvance]
  refine ⟨⟨hend, rfl, hplace, hline⟩, ?_⟩
  intro n hn
  show (_ ++ (s.stage.next.display h s.audience w).events).filterMap _ = _
  rw [List.filterMap_append, Audience.shown_clear, Stage.shown_display n hnext hl, if_pos hn]
  rfl

/-- As many more lines as are within reach. -/
theorem PlaysAt.rounds {k : Nat} (hs : s.PlaysAt a c j) (hreach : c.Reaches (j + k)) :
    let t := s.run h w (List.replicate k [.finishLine, .advance]).flatten
    t.session.PlaysAt a c (j + k) ∧ ∀ n < a.plugins,
      t.events.filterMap (Event.shownTo? n) = (List.range' (j + 1) k).map (c, ·) := by
  induction k generalizing s w j with
  | zero => exact ⟨hs, fun _ _ => rfl⟩
  | succ k ih =>
    have hfirst : c.Reaches (j + 1) := hreach.of_le (by omega)
    obtain ⟨hnext, hshown⟩ := hs.round (h := h) (w := w) hfirst
    have hcount : j + (k + 1) = j + 1 + k := by omega
    rw [hcount] at hreach ⊢
    obtain ⟨hend, hlater⟩ := ih (w := (s.run h w [.finishLine, .advance]).world) hnext hreach
    rw [List.replicate_succ, List.flatten_cons, run_append]
    refine ⟨hend, ?_⟩
    intro n hn
    dsimp only
    rw [List.filterMap_append, hshown n hn, hlater n hn, List.range'_succ]
    rfl

theorem playsAt_walk {asset : Asset} {set : List Conversation} (hs : s.Consistent)
    (hset : compile s.stage.globals asset.source = .ok set) (hc : set[i]? = some c)
    (hreach : c.Reaches j) :
    let t := s.run h w (Action.walk asset i j)
    t.session.PlaysAt s.audience c j ∧ ∀ n < s.audience.plugins,
      t.events.filterMap (Event.shownTo? n) = (List.range (j + 1)).map (c, ·) := by
  obtain ⟨hfirst, hshown⟩ := playsAt_start (h := h) (w := w) hs hset hc
  rw [← Nat.zero_add j] at hreach
  obtain ⟨hend, hlater⟩ := hfirst.rounds (h := h)
    (w := (s.perform h w (.start (some asset) i)).world) hreach
  rw [Nat.zero_add] at hend
  rw [Action.walk, run]
  refine ⟨hend, ?_⟩
  intro n hn
  dsimp only
  rw [List.filterMap_append, hshown n hn, hlater n hn, List.range_eq_range', List.range'_succ]
  rfl

end Session

/-- What a session can show. After any requests at all, no choice stands behind an
    earlier line of the active conversation than the one that is played, and whatever
    a plugin was shown is within reach. From there a line of an asset that compiles
    comes into the dialogue box, by requests of playing, if and only if its
    conversation has it and no choice stands behind an earlier line. The plugins are
    shown just these lines. To start the conversation and go on shows all of them, one
    after the other. -/
theorem shown_iff_reaches (h : Host σ) (globals : Variables) (w : σ) (past : List Action) :
    let t := (Session.new globals).run h w past
    (∀ c, t.session.stage.conversation? = some c →
      ∀ p ∈ c.choices, t.session.stage.lineIndex ≤ p.2) ∧
    (∀ n c j, .pluginShown n c j ∈ t.events → c.Reaches j) ∧
    ∀ asset set, compile t.session.stage.globals asset.source = .ok set →
      ∀ i c, set[i]? = some c → ∀ j,
        ((∃ actions : List Action, (∀ a ∈ actions, a.plays = true) ∧
            (t.session.run h t.world actions).session.stage.Shows c j) ↔
          j < c.lines.length ∧ ∀ p ∈ c.choices, j ≤ p.2) ∧
        (∀ n < t.session.audience.plugins,
          (∃ actions : List Action, (∀ a ∈ actions, a.plays = true) ∧
            .pluginShown n c j ∈ (t.session.run h t.world actions).events) ↔ c.Reaches j) ∧
        (c.Reaches j →
          let u := t.session.run h t.world (Action.walk asset i j)
          u.session.stage.Shows c j ∧ ∀ n < t.session.audience.plugins,
            u.events.filterMap (Event.shownTo? n) = (List.range (j + 1)).map (c, ·)) := by
  intro t
  have hs : t.session.Consistent := ((Session.consistent_new globals).run h w past).1
  have hpast := fun n => Session.inReach_run (h := h) (w := w) n
    (Session.consistent_new globals) (Stage.inReach_of_current_eq_none rfl) past
  have hreach : t.session.stage.InReach := (hpast 0).1
  refine ⟨fun c hc => (hreach c hc).choices, ?_, ?_⟩
  · intro n c j hmem
    exact (hpast n).2 _ (Event.mem_shownTo?_iff.2 hmem)
  · intro asset set hset i c hc j
    have hwalk := fun hj : c.Reaches j =>
      Session.playsAt_walk (h := h) (w := t.world) hs hset hc hj
    have hplays := Action.plays_walk asset i j
    have hlater := fun n => Session.inReach_run (h := h) (w := t.world) n hs hreach
    refine ⟨⟨?_, ?_⟩, ?_, fun hj => ⟨(hwalk hj).1.shows, (hwalk hj).2⟩⟩
    · rintro ⟨actions, -, hshows⟩
      have hline := (hlater 0 actions).1 c hshows.conversation
      rw [hshows.line] at hline
      exact ⟨hline.line, hline.choices⟩
    · rintro ⟨hline, hchoices⟩
      exact ⟨_, hplays, (hwalk ⟨hline, hchoices⟩).1.shows⟩
    · intro n hn
      constructor
      · rintro ⟨actions, -, hmem⟩
        exact (hlater n actions).2 _ (Event.mem_shownTo?_iff.2 hmem)
      · intro hj
        refine ⟨_, hplays, ?_⟩
        rw [← Event.mem_shownTo?_iff, (hwalk hj).2 n hn]
        exact List.mem_map.2 ⟨j, List.mem_range.2 (Nat.lt_succ_self j), rfl⟩

/-! A script with a line below a choice, for a view that brings out only every other
    line at once. -/

/-- The script. -/
def cutOffScript : Asset where
  name := []
  source := String.toList
    "\x7b\x7bConversationName(A)\x7d\x7d
X
Y
- Again -> A
Z"

/-- A host without functions, whose world is the number of lines so far. -/
def fitfulHost : Host Nat where
  functions := ∅
  reveal := fun _ _ n => (if n % 2 = 0 then .revealing else .complete, n + 1)

/-- The first two of the three lines are shown, one after the other, and no run of
    the session shows the third. -/
theorem shown_cutOffScript :
    let t := (Session.new ∅).run fitfulHost 0 [.setView (some []), .addPlugin]
    ∃ set c, compile ∅ cutOffScript.source = .ok set ∧ set[0]? = some c ∧ c.lines.length = 3 ∧
      (t.session.run fitfulHost t.world (Action.walk cutOffScript 0 1)).events.filterMap
        (Event.shownTo? 0) = [(c, 0), (c, 1)] ∧
      ¬ ∃ actions : List Action, (∀ a ∈ actions, a.plays = true) ∧
        (t.session.run fitfulHost t.world actions).session.stage.Shows c 2 := by
  intro t
  let line : Text → Line := fun text => ⟨[], ⟨text, []⟩, none⟩
  let c : Conversation :=
    ⟨['A'], [line ['X'], line ['Y'], line ['Z']], [(⟨"Again".toList, ['A']⟩, 1)]⟩
  have hset : compile ∅ cutOffScript.source = .ok [c] := by decide +kernel
  obtain ⟨-, -, hshown⟩ := shown_iff_reaches fitfulHost ∅ 0 [.setView (some []), .addPlugin]
  have hline := hshown cutOffScript [c] hset 0 c rfl
  obtain ⟨-, -, hwalk⟩ := hline 1
  refine ⟨[c], c, hset, rfl, rfl, (hwalk ⟨by decide, by decide⟩).2 0 Nat.zero_lt_one, ?_⟩
  rw [(hline 2).1]
  decide

end Dialogue
