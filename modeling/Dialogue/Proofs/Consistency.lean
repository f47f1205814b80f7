import Dialogue.Proofs.Moves

/-! # Consistency of the stage

    A stage has seven fields, and each request changes them in an order of its
    own. Between requests they always fit together. Without an active
    conversation the line number is zero and the dialogue box is empty. With one,
    the conversation and its line are there, the box holds that line, and the
    pending choices are those behind it.

    Two things carry the invariant. A line is only ever entered that the
    conversation has: the next one after a comparison with the number of lines,
    and the first one because no conversation compiles without a line. And a
    session that turns to another set of conversations stops by the old one.

    It follows that no look-up without a check ever fails, neither one by the
    session nor one by a function that the session calls.
-/

namespace Dialogue

variable {σ : Type}

/-! ### The invariant -/

namespace Stage

/-- The stage plays line `l` of conversation `c`, which has place `i` in the set.
    The line is in the box as `d`, with whatever text. -/
structure Plays (s : Stage) (i : Nat) (c : Conversation) (l : Line) (d : DisplayedLine) :
    Prop where
  conversation : s.conversations[i]? = some c
  line : c.lines[s.lineIndex]? = some l
  shown : s.shown = some d
  speaker : d.speaker = l.speaker
  image : d.image = l.image
  pending : s.pending = c.choicesAt s.lineIndex

/-- No line is played, and the dialogue box is empty. -/
structure IsBlank (s : Stage) : Prop where
  lineIndex : s.lineIndex = 0
  busy : s.busy = false
  pending : s.pending = []
  shown : s.shown = none

/-- The fields of the stage fit together. -/
structure Consistent (s : Stage) : Prop where
  compiled : s.conversations = [] ∨ IsCompiled s.conversations
  playing : ∀ i, s.current = some i → ∃ c l d, s.Plays i c l d
  idle : s.current = none → s.IsBlank

end Stage

/-- The event is no fault, and a function that is called finds the conversation
    and the line it is called for. -/
def Event.IsSafe : Event → Prop
  | .fault => False
  | .called _ scene => ∃ c l, scene.stage.conversation? = some c ∧ scene.stage.line? = some l
  | _ => True

namespace Stage

theorem consistent_idle (globals : Variables) : (idle globals).Consistent where
  compiled := .inl rfl
  playing := by
    intro i hi
    cases hi
  idle := by
    intro _
    exact ⟨rfl, rfl, rfl, rfl⟩

theorem conversation?_eq_some_iff {s : Stage} {c : Conversation} :
    s.conversation? = some c ↔ ∃ i, s.current = some i ∧ s.conversations[i]? = some c := by
  simp [conversation?, Option.bind_eq_some_iff]

theorem current_ne_none {s : Stage} {c : Conversation} (hc : s.conversation? = some c) :
    s.current ≠ none := by
  obtain ⟨i, hcurrent, -⟩ := conversation?_eq_some_iff.1 hc
  rw [hcurrent]
  exact Option.some_ne_none i

theorem line?_eq_of_conversation? {s : Stage} {c : Conversation} (hc : s.conversation? = some c) :
    s.line? = c.lines[s.lineIndex]? := by
  rw [line?, hc]
  rfl

/-- The active conversation is missing only where none is active. -/
theorem Consistent.conversation?_eq_none_iff {s : Stage} (hs : s.Consistent) :
    s.conversation? = none ↔ s.current = none := by
  cases hcurrent : s.current with
  | none => simp [conversation?, hcurrent]
  | some i =>
    obtain ⟨c, l, d, hplays⟩ := hs.playing i hcurrent
    rw [conversation?_eq_some_iff.2 ⟨i, hcurrent, hplays.conversation⟩]
    simp

/-- The active conversation is played. -/
theorem Consistent.exists_plays {s : Stage} (hs : s.Consistent) {c : Conversation}
    (hc : s.conversation? = some c) : ∃ i l d, s.Plays i c l d := by
  obtain ⟨i, hcurrent, hi⟩ := conversation?_eq_some_iff.1 hc
  obtain ⟨c', l, d, hplays⟩ := hs.playing i hcurrent
  have hsame : c' = c := Option.some.inj (hplays.conversation.symm.trans hi)
  exact ⟨i, l, d, hsame ▸ hplays⟩

/-- A consistent stage points at a conversation that is there. -/
theorem Consistent.isAstray_eq_false {s : Stage} (hs : s.Consistent) : s.isAstray = false := by
  have hnone := hs.conversation?_eq_none_iff
  unfold isAstray
  cases hcurrent : s.current with
  | none => rfl
  | some i =>
    cases hc : s.conversation? with
    | none =>
      rw [hnone.1 hc] at hcurrent
      cases hcurrent
    | some c => rfl

/-! ### The lines that are entered -/

/-- The next line is there if the number of lines says so. -/
theorem next_line? {s : Stage} {c : Conversation} (hc : s.conversation? = some c)
    (hline : s.lineIndex + 1 < c.lines.length) :
    s.next.conversation? = some c ∧ s.next.line? = some c.lines[s.lineIndex + 1] := by
  have hnext : s.next.conversation? = some c := hc
  refine ⟨hnext, ?_⟩
  rw [line?_eq_of_conversation? hnext]
  exact List.getElem?_eq_getElem hline

/-- A set with a conversation in it was compiled, whether it is the one that the
    stage has or a new one. -/
theorem Consistent.isCompiled {s : Stage} (hs : s.Consistent) {set : List Conversation}
    (hset : set = s.conversations ∨ IsCompiled set) {index : Nat} (hindex : index < set.length) :
    IsCompiled set := by
  rcases hset with rfl | hset
  · rcases hs.compiled with hnil | hcompiled
    · rw [hnil] at hindex
      exact absurd hindex (Nat.not_lt_zero index)
    · exact hcompiled
  · exact hset

/-- The first line is there in every conversation that was compiled. -/
theorem enter_line? (s : Stage) {set : List Conversation} (hset : IsCompiled set) {index : Nat}
    (hindex : index < set.length) :
    (s.enter set index).conversation? = some set[index] ∧
      ∃ l, (s.enter set index).line? = some l := by
  have hc : (s.enter set index).conversation? = some set[index] :=
    conversation?_eq_some_iff.2 ⟨index, rfl, List.getElem?_eq_getElem hindex⟩
  obtain ⟨globals, source, hcompile⟩ := hset
  have hlines := lines_ne_nil_of_compile hcompile (List.getElem_mem hindex)
  rw [line?_eq_of_conversation? hc]
  exact ⟨hc, _, List.getElem?_eq_getElem (List.length_pos_iff.2 hlines)⟩

/-! ### What each move does to it -/

theorem consistent_stop {s : Stage}
    (hset : s.conversations = [] ∨ IsCompiled s.conversations) : s.stop.Consistent where
  compiled := hset
  playing := by
    intro i hi
    cases hi
  idle := by
    intro _
    exact ⟨rfl, rfl, rfl, rfl⟩

/-- The stage is consistent after a line was displayed that is there. -/
theorem consistent_display {h : Host σ} {a : Audience} {s : Stage} {w : σ} {c : Conversation}
    {l : Line} (hset : s.conversations = [] ∨ IsCompiled s.conversations)
    (hc : s.conversation? = some c) (hl : s.line? = some l) :
    (s.display h a w).stage.Consistent := by
  obtain ⟨i, hcurrent, hi⟩ := conversation?_eq_some_iff.1 hc
  rw [line?_eq_of_conversation? hc] at hl
  rw [display_eq_displayLine hc ((line?_eq_of_conversation? hc).trans hl)]
  refine ⟨hset, ?_, ?_⟩
  · -- The place did not change, and the box holds what was just displayed.
    intro j hj
    have hsame : j = i := Option.some.inj (hj.symm.trans hcurrent)
    subst hsame
    exact ⟨c, l, _, hi, hl, rfl, rfl, rfl, rfl⟩
  · intro hnone
    have habsurd : s.current = none := hnone
    rw [hcurrent] at habsurd
    cases habsurd

end Stage

/-! ### Safe events -/

theorem Event.IsSafe.of_isQuiet {e : Event} (he : e.isQuiet = true) : e.IsSafe := by
  cases e <;> trivial

namespace Audience

variable {a : Audience} {s : Stage} {e : Event}

theorem isSafe_of_mem_clear (hs : s.isAstray = false) (he : e ∈ a.clear s) : e.IsSafe := by
  rw [clear, Stage.faults_eq_nil hs, List.append_nil] at he
  rcases List.mem_append.1 he with he | he
  · obtain ⟨v, -, rfl⟩ := List.mem_map.1 he
    trivial
  · obtain ⟨n, -, rfl⟩ := List.mem_map.1 he
    trivial

theorem isSafe_of_mem_stop (hs : s.isAstray = false) (he : e ∈ a.stop s) : e.IsSafe := by
  rcases List.mem_append.1 he with he | he
  · exact isSafe_of_mem_clear hs he
  · split at he
    · rcases List.mem_cons.1 he with rfl | he
      · trivial
      · obtain ⟨n, -, rfl⟩ := List.mem_map.1 he
        trivial
    · cases he

theorem isSafe_of_mem_announce {c : Conversation} (hc : s.conversation? = some c)
    (he : e ∈ a.announce s) : e.IsSafe := by
  rw [announce, hc] at he
  rcases List.mem_cons.1 he with rfl | he
  · trivial
  · obtain ⟨n, -, rfl⟩ := List.mem_map.1 he
    trivial

theorem isSafe_of_mem_display {c : Conversation} {index : Nat} {line : DisplayedLine}
    (he : e ∈ a.display c index line) : e.IsSafe := by
  simp only [display, List.mem_append, List.mem_cons, tellView, tellPlugins, List.mem_map] at he
  rcases he with ((rfl | ⟨v, -, rfl⟩) | ⟨n, -, rfl⟩) | he
  · trivial
  · trivial
  · trivial
  · split at he
    · cases he
    · rcases List.mem_cons.1 he with rfl | he
      · trivial
      · obtain ⟨v, -, rfl⟩ := List.mem_map.1 he
        trivial

end Audience

namespace Stage

theorem isSafe_of_mem_display {h : Host σ} {a : Audience} {s : Stage} {w : σ} {c : Conversation}
    {l : Line} (hc : s.conversation? = some c) (hl : s.line? = some l) {e : Event}
    (he : e ∈ (s.display h a w).events) : e.IsSafe := by
  rw [display_eq_displayLine hc hl] at he
  simp only [displayLine, List.mem_append, List.mem_map, List.mem_flatMap] at he
  rcases he with (⟨f, -, rfl⟩ | ⟨f, -, he⟩) | he
  · -- The scene differs from the stage in being busy, and both are found as before.
    exact ⟨c, l, hc, hl⟩
  · exact .of_isQuiet (Audience.isQuiet_of_mem_report he)
  · exact Audience.isSafe_of_mem_display he

/-- A move from a consistent stage ends on one, and nothing on the way is a
    fault. -/
theorem Move.consistent {h : Host σ} {a : Audience} {s : Stage} {w : σ} {o : Outcome σ}
    (hs : s.Consistent) (hmove : s.Move h a w o) :
    o.stage.Consistent ∧ ∀ e ∈ o.events, e.IsSafe := by
  have hstray := hs.isAstray_eq_false
  cases hmove with
  | stay globals busy events hbusy hquiet =>
    -- Neither the variables nor the view have a say in what is played.
    refine ⟨⟨hs.compiled, ?_, ?_⟩, ?_⟩
    · intro i hi
      obtain ⟨c, l, d, hplays⟩ := hs.playing i hi
      exact ⟨c, l, d, hplays.conversation, hplays.line, hplays.shown, hplays.speaker,
        hplays.image, hplays.pending⟩
    · intro hnone
      have hblank := hs.idle hnone
      have hbusy' : busy = false := hbusy.elim (fun hsame => hsame.trans hblank.busy) id
      exact ⟨hblank.lineIndex, hbusy', hblank.pending, hblank.shown⟩
    · intro e he
      exact .of_isQuiet (hquiet e he)
  | stop =>
    refine ⟨consistent_stop hs.compiled, ?_⟩
    intro e he
    exact Audience.isSafe_of_mem_stop hstray he
  | next c hc hbusy hpending hline =>
    obtain ⟨hc, hl⟩ := next_line? hc hline
    refine ⟨consistent_display hs.compiled hc hl, ?_⟩
    intro e he
    rcases List.mem_append.1 he with he | he
    · exact Audience.isSafe_of_mem_clear hstray he
    · exact isSafe_of_mem_display hc hl he
  | leave c hc hbusy hpending hline =>
    refine ⟨consistent_stop hs.compiled, ?_⟩
    intro e he
    rcases List.mem_append.1 he with he | he
    · exact Audience.isSafe_of_mem_clear hstray he
    · exact Audience.isSafe_of_mem_stop hstray he
  | enter before set index hquiet hset hindex =>
    -- The stop goes by the old set, the rest by the one that is entered.
    have hcompiled := hs.isCompiled hset hindex
    obtain ⟨hc, l, hl⟩ := s.enter_line? hcompiled hindex
    refine ⟨consistent_display (.inr hcompiled) hc hl, ?_⟩
    intro e he
    rcases List.mem_append.1 he with he | he
    · rcases List.mem_append.1 he with he | he
      · exact .of_isQuiet (hquiet e he)
      · rcases List.mem_append.1 he with he | he
        · exact Audience.isSafe_of_mem_stop hstray he
        · exact Audience.isSafe_of_mem_announce hc he
    · exact isSafe_of_mem_display hc hl he

end Stage

/-! ### Runs -/

namespace Session

/-- The stage is consistent, and the cache holds what the compiler would give. -/
structure Consistent (s : Session) : Prop where
  stage : s.stage.Consistent
  cache : s.cache.Sound

theorem consistent_new (globals : Variables) : (new globals).Consistent :=
  ⟨Stage.consistent_idle globals, Cache.sound_empty⟩

theorem Consistent.perform {s : Session} (hs : s.Consistent) (h : Host σ) (w : σ) (a : Action) :
    (s.perform h w a).session.Consistent ∧ ∀ e ∈ (s.perform h w a).events, e.IsSafe := by
  obtain ⟨hmove, hsound⟩ := move_perform (h := h) (w := w) hs.cache
    hs.stage.isAstray_eq_false a
  obtain ⟨hstage, hsafe⟩ := hmove.consistent hs.stage
  exact ⟨⟨hstage, hsound⟩, hsafe⟩

theorem Consistent.run {s : Session} (hs : s.Consistent) (h : Host σ) (w : σ)
    (actions : List Action) :
    (s.run h w actions).session.Consistent ∧ ∀ e ∈ (s.run h w actions).events, e.IsSafe := by
  let P : Session → List Event → Prop := fun s past => s.Consistent ∧ ∀ e ∈ past, e.IsSafe
  have hfirst : P s [] := ⟨hs, by simp⟩
  have hstep : ∀ s w past a, True → P s past →
      P (s.perform h w a).session (past ++ (s.perform h w a).events) := by
    intro s w past a _ hpast
    obtain ⟨hnext, hsafe⟩ := hpast.1.perform h w a
    refine ⟨hnext, ?_⟩
    intro e he
    rcases List.mem_append.1 he with he | he
    · exact hpast.2 e he
    · exact hsafe e he
  exact run_induction hstep (fun _ _ => trivial) hfirst

end Session

/-- After every sequence of requests to a new session the fields of its stage fit
    together, whatever the scripts, the functions and the answers of the view.
    Whatever was looked up on the way without a check was there, for the session
    as for the functions it called. -/
theorem run_consistent (h : Host σ) (globals : Variables) (w : σ) (actions : List Action) :
    ((Session.new globals).run h w actions).session.stage.Consistent ∧
      ∀ e ∈ ((Session.new globals).run h w actions).events, e.IsSafe := by
  obtain ⟨hs, hsafe⟩ := (Session.consistent_new globals).run h w actions
  exact ⟨hs.stage, hsafe⟩

end Dialogue
