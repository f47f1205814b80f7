import Dialogue.Proofs.Caching

/-! # Arriving at a line

    The moves of a session do not tell which request led to them. Here each request
    is looked at together with its answer. It leads to a line, and then that line is
    displayed; or it leads out of the conversation; or it leads nowhere, and then
    what is played stays (`Session.Conduct`).

    Where a request leads is said apart from how it is followed
    (`Session.LeadsTo`): a start to the first line of a conversation of the asset, as
    the compiler gives it, a jump or a choice to the first line of the conversation
    of that name, and an advance to the next line. On the way there the dialogue box
    is always empty, whatever it held before (`Stage.facing`). Everything that is
    heard of a line, from the calls of its functions to the choices behind it, is
    heard when the session arrives at it (`Event.isOfLine`).
-/

namespace Dialogue

variable {σ : Type}

/-! ### Where requests lead -/

/-- A line, by its set of conversations, the place of its conversation among them
    and its number. -/
structure Destination where
  conversations : List Conversation
  current : Nat
  lineIndex : Nat

/-- The stage while the functions of its line run. -/
def Stage.working (s : Stage) : Stage := { s.clear with busy := true }

/-- The stage with an empty dialogue box, ahead of a line. -/
def Stage.facing (s : Stage) (d : Destination) : Stage :=
  { s.clear with
    conversations := d.conversations, current := some d.current, lineIndex := d.lineIndex }

/-- The stage is at line `l` of conversation `c`, whatever the dialogue box holds. -/
structure Stage.IsAt (s : Stage) (d : Destination) (c : Conversation) (l : Line) : Prop where
  conversations : s.conversations = d.conversations
  current : s.current = some d.current
  lineIndex : s.lineIndex = d.lineIndex
  conversation : s.conversation? = some c
  line : s.line? = some l

/-- The dialogue box has no part in where a stage is. -/
theorem Stage.isAt_of_facing {s : Stage} {d : Destination} {c : Conversation} {l : Line}
    (hc : (s.facing d).conversation? = some c) (hl : (s.facing d).line? = some l) (busy : Bool)
    (pending : List Choice) (shown : Option DisplayedLine) :
    ({ s.facing d with busy, pending, shown } : Stage).IsAt d c l :=
  ⟨rfl, rfl, rfl, hc, hl⟩

namespace Session

/-- Where a request leads, if it leads to a line. -/
inductive LeadsTo (s : Session) : Action → Destination → Prop
  | start {asset : Asset} {index : Nat} {set : List Conversation}
      (hset : compile s.stage.globals asset.source = .ok set) (hindex : index < set.length) :
      LeadsTo s (.start (some asset) index) ⟨set, index, 0⟩
  | interact {i : Interaction} {index : Nat} {asset : Asset} {set : List Conversation}
      (hasset : i.dialogues[index]? = some asset)
      (hset : compile s.stage.globals asset.source = .ok set) (hindex : 0 < set.length) :
      LeadsTo s (.interact i index) ⟨set, 0, 0⟩
  | jump {name : Text} {i : Nat} (hname : Conversation.index? s.stage.conversations name = some i) :
      LeadsTo s (.jump name) ⟨s.stage.conversations, i, 0⟩
  | select {index i : Nat} {choice : Choice} (hchoice : s.stage.pending[index]? = some choice)
      (hfree : choice.isReserved = false)
      (hname : Conversation.index? s.stage.conversations choice.target = some i) :
      LeadsTo s (.select index) ⟨s.stage.conversations, i, 0⟩
  | advance {i : Nat} {c : Conversation} (hphase : s.phase = .playing)
      (hcurrent : s.stage.current = some i) (hc : s.stage.conversations[i]? = some c)
      (hline : s.stage.lineIndex + 1 < c.lines.length) :
      LeadsTo s .advance ⟨s.stage.conversations, i, s.stage.lineIndex + 1⟩

end Session

/-- Whether a request for a conversation was followed, by its answer. -/
def Action.enters : Action → Answer → Bool
  | .start .., .done | .interact .., .done | .jump _, .done => true
  | .select _, .selected (.entered _) => true
  | _, _ => false

/-- The request was followed to a line. Only an advance can be followed and yet come
    to none, behind the last line. -/
def Action.Arrives (a : Action) (t : Turn σ Answer) : Prop :=
  a.enters t.answer = true ∨ a = .advance ∧ t.answer = .advanced true ∧ t.session.phase ≠ .idle

/-! ### What is heard of an end -/

/-- The event is part of clearing the dialogue box, or of stopping a conversation. -/
def Event.isClosing : Event → Bool
  | .cleared _ | .pluginCleared .. | .ended _ | .logged .ended | .fault => true
  | _ => false

namespace Audience

variable {a : Audience} {s : Stage} {e : Event}

theorem isClosing_of_mem_clear (he : e ∈ a.clear s) : e.isClosing = true := by
  simp only [clear, Stage.faults, List.mem_append, tellView, tellPlugins, List.mem_map] at he
  rcases he with (⟨v, -, rfl⟩ | he) | ⟨n, -, rfl⟩
  · rfl
  · split at he
    · rw [List.mem_singleton.1 he]
      rfl
    · cases he
  · rfl

theorem isClosing_of_mem_stop (he : e ∈ a.stop s) : e.isClosing = true := by
  rcases List.mem_append.1 he with he | he
  · exact isClosing_of_mem_clear he
  · split at he
    · rcases List.mem_cons.1 he with rfl | he
      · rfl
      · obtain ⟨n, -, rfl⟩ := List.mem_map.1 he
        rfl
    · cases he

end Audience

/-! ### What is heard of a line -/

/-- The diagnostic is about a function of a line. -/
def Diagnostic.isOfLine : Diagnostic → Bool
  | .missingFunction .. => true
  | _ => false

/-- The event is part of the display of a line. -/
def Event.isOfLine : Event → Bool
  | .called .. | .lineShown .. | .choicesShown .. | .pluginShown .. => true
  | .logged (.displaying _) | .logged (.waiting _) => true
  | .diagnosed _ d | .logged (.reported d) => d.isOfLine
  | _ => false

theorem Event.isOfLine_of_isClosing {e : Event} (he : e.isClosing = true) :
    e.isOfLine = false := by
  unfold isClosing at he
  split at he <;> first | rfl | cases he

theorem Event.isOfLine_of_isCacheNotice {e : Event} (he : e.isCacheNotice = true) :
    e.isOfLine = false := by
  unfold isCacheNotice at he
  split at he <;> first | rfl | cases he

namespace Audience

variable {a : Audience} {s : Stage} {e : Event}

theorem isOfLine_of_mem_report {d : Diagnostic} (he : e ∈ a.report d) :
    e.isOfLine = d.isOfLine := by
  rcases List.mem_cons.1 he with rfl | he
  · rfl
  · obtain ⟨n, -, rfl⟩ := List.mem_map.1 he
    rfl

theorem isOfLine_of_mem_clear (he : e ∈ a.clear s) : e.isOfLine = false :=
  Event.isOfLine_of_isClosing (isClosing_of_mem_clear he)

theorem isOfLine_of_mem_stop (he : e ∈ a.stop s) : e.isOfLine = false :=
  Event.isOfLine_of_isClosing (isClosing_of_mem_stop he)

theorem isOfLine_of_mem_announce (he : e ∈ a.announce s) : e.isOfLine = false := by
  unfold announce at he
  split at he
  · rw [List.mem_singleton.1 he]
    rfl
  · rcases List.mem_cons.1 he with rfl | he
    · rfl
    · obtain ⟨n, -, rfl⟩ := List.mem_map.1 he
      rfl

theorem isOfLine_of_mem_display {c : Conversation} {index : Nat} {line : DisplayedLine}
    (he : e ∈ a.display c index line) : e.isOfLine = true := by
  simp only [display, List.mem_append, List.mem_cons, tellView, tellPlugins, List.mem_map] at he
  rcases he with ((rfl | ⟨v, -, rfl⟩) | ⟨n, -, rfl⟩) | he
  · rfl
  · rfl
  · rfl
  · split at he
    · cases he
    · rcases List.mem_cons.1 he with rfl | he
      · rfl
      · obtain ⟨v, -, rfl⟩ := List.mem_map.1 he
        rfl

end Audience

namespace Stage

variable {h : Host σ} {a : Audience} {s : Stage} {w : σ}

/-- Everything that a display sends is of its line. -/
theorem isOfLine_of_mem_displayLine {c : Conversation} {index : Nat} {l : Line} {e : Event}
    (he : e ∈ (s.displayLine h a c index l w).events) : e.isOfLine = true := by
  simp only [displayLine, List.mem_append, List.mem_map, List.mem_flatMap] at he
  rcases he with (⟨f, -, rfl⟩ | ⟨f, -, he⟩) | he
  · rfl
  · exact Audience.isOfLine_of_mem_report he
  · exact Audience.isOfLine_of_mem_display he

end Stage

/-! ### What requests come to -/

namespace Session

variable {h : Host σ} {s : Session} {w : σ} {a : Action} {d : Destination}

/-- Requests lead to conversations that the compiler gave out. -/
theorem LeadsTo.isCompiled (hs : s.Consistent) (hd : s.LeadsTo a d) :
    IsCompiled d.conversations := by
  cases hd with
  | start hset hindex => exact ⟨_, _, hset⟩
  | interact hasset hset hindex => exact ⟨_, _, hset⟩
  | jump hname => exact hs.stage.isCompiled (.inl rfl) (lt_of_index?_eq_some hname)
  | select hchoice hfree hname => exact hs.stage.isCompiled (.inl rfl) (lt_of_index?_eq_some hname)
  | advance hphase hcurrent hc hline =>
    exact hs.stage.isCompiled (.inl rfl) (List.getElem?_eq_some_iff.1 hc).1

/-- Requests lead to lines that are there. -/
theorem LeadsTo.line? (hs : s.Consistent) (hd : s.LeadsTo a d) :
    ∃ c l, (s.stage.facing d).conversation? = some c ∧ (s.stage.facing d).line? = some l := by
  have hcompiled := hd.isCompiled hs
  -- A conversation is entered at the line that the compiler gave it at least.
  have hfirst : ∀ set i, i < set.length → IsCompiled set → ∃ c l,
      (s.stage.facing ⟨set, i, 0⟩).conversation? = some c ∧
        (s.stage.facing ⟨set, i, 0⟩).line? = some l := by
    intro set i hi hset
    obtain ⟨hc, l, hl⟩ := s.stage.enter_line? hset hi
    exact ⟨_, l, hc, hl⟩
  cases hd with
  | start hset hindex => exact hfirst _ _ hindex hcompiled
  | interact hasset hset hindex => exact hfirst _ _ hindex hcompiled
  | jump hname => exact hfirst _ _ (lt_of_index?_eq_some hname) hcompiled
  | select hchoice hfree hname => exact hfirst _ _ (lt_of_index?_eq_some hname) hcompiled
  | @advance i c hphase hcurrent hc hline =>
    let next := s.stage.facing ⟨s.stage.conversations, i, s.stage.lineIndex + 1⟩
    have hnext : next.conversation? = some c := hc
    refine ⟨c, c.lines[s.stage.lineIndex + 1], hnext, ?_⟩
    rw [Stage.line?_eq_of_conversation? hnext]
    exact List.getElem?_eq_getElem hline

/-- What a request comes to. -/
inductive Conduct (h : Host σ) (s : Session) (w : σ) (a : Action) (t : Turn σ Answer) : Prop
  /-- It is followed to the line where it leads, which is displayed. -/
  | arrives (harrives : a.Arrives t) (d : Destination) (c : Conversation) (l : Line)
      (hleads : s.LeadsTo a d) (hc : (s.stage.facing d).conversation? = some c)
      (hl : (s.stage.facing d).line? = some l)
      (before : List Event) (hbefore : ∀ e ∈ before, e.isOfLine = false)
      (houtcome : t.outcome =
        ((s.stage.facing d).displayLine h s.audience c d.lineIndex l w).after before)
  /-- It is followed out of the conversation. -/
  | leaves (harrives : ¬ a.Arrives t) (ha : a = .stop ∨ a = .advance ∧ s.phase = .playing)
      (hstage : t.session.stage = s.stage.stop) (hevents : ∀ e ∈ t.events, e.isOfLine = false)
  /-- It leaves what is played as it is. The variables may change, and the view may
      have brought out the line. -/
  | stays (harrives : ¬ a.Arrives t) (globals : Variables) (busy : Bool)
      (hstage : t.session.stage = { s.stage with globals, busy })
      (hevents : ∀ e ∈ t.events, e.isOfLine = false)

/-- A turn that displays the line where the request leads. -/
theorem Conduct.of_display (hs : s.Consistent) {t : Turn σ Answer} (hleads : s.LeadsTo a d)
    (hanswer : a.enters t.answer = true ∨ a = .advance ∧ t.answer = .advanced true)
    {before : List Event}
    (hbefore : ∀ e ∈ before, e.isOfLine = false)
    (houtcome : t.outcome = ((s.stage.facing d).display h s.audience w).after before) :
    s.Conduct h w a t := by
  obtain ⟨c, l, hc, hl⟩ := hleads.line? hs
  rw [Stage.display_eq_displayLine hc hl] at houtcome
  have hstage : t.session.stage = _ := congrArg Outcome.stage houtcome
  have hactive : t.session.phase ≠ .idle := by
    rw [phase, Ne, Stage.phase_eq_idle_iff, hstage]
    exact Option.some_ne_none d.current
  have harrives : a.Arrives t := hanswer.imp_right fun hmoved => ⟨hmoved.1, hmoved.2, hactive⟩
  exact .arrives harrives d c l hleads hc hl before hbefore houtcome

/-- A turn that keeps what is played, and of which nothing is heard that is of a
    line. -/
theorem Conduct.of_stage_eq {t : Turn σ Answer} {globals : Variables} {busy : Bool}
    (hstage : t.session.stage = { s.stage with globals, busy })
    (henters : a.enters t.answer = false) (hmoved : t.answer ≠ .advanced true)
    (hevents : ∀ e ∈ t.events, e.isOfLine = false) : s.Conduct h w a t := by
  refine .stays ?_ globals busy hstage hevents
  rintro (hentered | ⟨-, hadvanced, -⟩)
  · rw [henters] at hentered
    cases hentered
  · exact hmoved hadvanced

/-- A refused request keeps the stage. -/
theorem Conduct.of_refused {error : SessionError} {cache : Cache} {events : List Event}
    (hevents : ∀ e ∈ events, e.isOfLine = false) :
    s.Conduct h w a ⟨.refused error, { s with cache }, w, events⟩ := by
  have henters : a.enters (.refused error) = false := by cases a <;> rfl
  exact .of_stage_eq rfl henters Answer.noConfusion hevents

/-- A request that is followed to the first line of a conversation stops the one
    before and announces the new one on its way. -/
theorem Conduct.of_enter (hs : s.Consistent) {answer : Answer} {cache : Cache}
    {set : List Conversation} {index : Nat} {before : List Event}
    (hleads : s.LeadsTo a ⟨set, index, 0⟩) (hanswer : a.enters answer = true)
    (hbefore : ∀ e ∈ before, e.isOfLine = false) :
    s.Conduct h w a
      (({ s with cache } : Session).follow answer before (s.enter h w set index)) := by
  let entered := s.stage.enter set index
  have hevents : before ++ (s.audience.stop s.stage ++ s.audience.announce entered ++
      (entered.display h s.audience w).events) =
      before ++ (s.audience.stop s.stage ++ s.audience.announce entered) ++
        (entered.display h s.audience w).events := by
    rw [List.append_assoc before]
  refine .of_display hs hleads (.inl hanswer) ?_ (congrArg (Outcome.mk _ _) hevents)
  intro e he
  rcases List.mem_append.1 he with he | he
  · exact hbefore e he
  · rcases List.mem_append.1 he with he | he
    · exact Audience.isOfLine_of_mem_stop he
    · exact Audience.isOfLine_of_mem_announce he

/-- The conversations that a start opens under these variables, or why it is refused. -/
def opening (globals : Variables) (asset : Option Asset) (index : Nat) :
    Except SessionError (List Conversation) :=
  match asset with
  | none => .error .noAsset
  | some asset =>
    match compile globals asset.source with
    | .error e => .error (.compile e)
    | .ok set => if index < set.length then .ok set else .error (.outOfRange index set.length)

/-- A start opens what its asset compiles to, if the conversation that it asks for is
    there. -/
theorem exists_of_opening_eq_ok {globals : Variables} {asset : Option Asset} {index : Nat}
    {set : List Conversation} (hopening : opening globals asset index = .ok set) :
    ∃ chosen, asset = some chosen ∧ compile globals chosen.source = .ok set ∧
      index < set.length := by
  unfold opening at hopening
  split at hopening
  · cases hopening
  · next chosen =>
    split at hopening
    · cases hopening
    · next set' hset =>
      split at hopening
      · next hindex =>
        obtain rfl : set' = set := Except.ok.inj hopening
        exact ⟨chosen, rfl, hset, hindex⟩
      · cases hopening

/-- A start comes to what its asset opens, wherever the cache has it from. Only the log
    tells of that. -/
theorem Consistent.start_eq (hs : s.Consistent) (asset : Option Asset) (index : Nat) :
    ∃ cache notices, (∀ e ∈ notices, Event.isCacheNotice e = true) ∧
      s.start h w asset index =
        match opening s.stage.globals asset index with
        | .error e => ⟨.error e, { s with cache }, w, notices⟩
        | .ok set =>
          ({ s with cache } : Session).follow (.ok ()) notices (s.enter h w set index) := by
  cases asset with
  | none => exact ⟨s.cache, [], List.forall_mem_nil _, rfl⟩
  | some asset =>
    have hresult := (hs.cache.fetch asset s.stage.globals).2
    have hnotices : ∀ e ∈ (s.cache.fetch asset s.stage.globals).notices.map Event.logged,
        e.isCacheNotice = true := fun _ he => Cache.isCacheNotice_of_mem_fetch he
    refine ⟨(s.cache.fetch asset s.stage.globals).cache, _, hnotices, ?_⟩
    rw [start, opening, ← hresult]
    cases (s.cache.fetch asset s.stage.globals).result with
    | error e => rfl
    | ok set =>
      dsimp only [Except.map]
      split <;> rfl

/-- A start, of an asset of one's own or of one on offer. -/
theorem conduct_start (hs : s.Consistent) {asset : Option Asset} {index : Nat}
    (hleads : ∀ chosen set, asset = some chosen →
      compile s.stage.globals chosen.source = .ok set → index < set.length →
      s.LeadsTo a ⟨set, index, 0⟩) (henters : a.enters .done = true) :
    s.Conduct h w a ((s.start h w asset index).map (.ofExcept fun _ => .done)) := by
  obtain ⟨cache, notices, hnotices, hstart⟩ := hs.start_eq (h := h) (w := w) asset index
  have hlog : ∀ e ∈ notices, e.isOfLine = false :=
    fun e he => Event.isOfLine_of_isCacheNotice (hnotices e he)
  rw [hstart]
  cases hopening : opening s.stage.globals asset index with
  | error e => exact .of_refused hlog
  | ok set =>
    obtain ⟨chosen, hchosen, hset, hindex⟩ := exists_of_opening_eq_ok hopening
    exact .of_enter hs (hleads chosen set hchosen hset hindex) henters hlog

theorem conduct_jump (hs : s.Consistent) (name : Text) :
    s.Conduct h w (.jump name) ((s.jump h w name).map (.ofExcept fun _ => .done)) := by
  unfold jump
  split
  · exact .of_refused (List.forall_mem_nil _)
  · split
    · exact .of_refused (List.forall_mem_nil _)
    · next i hname => exact .of_enter hs (.jump hname) rfl (List.forall_mem_nil _)

theorem conduct_select (hs : s.Consistent) (index : Nat) :
    s.Conduct h w (.select index) ((s.select h w index).map (.ofExcept .selected)) := by
  unfold select
  split
  · exact .of_refused (List.forall_mem_nil _)
  · split
    · exact .of_refused (List.forall_mem_nil _)
    · next choice hchoice =>
      split
      · exact .of_stage_eq rfl rfl Answer.noConfusion fun _ he => Audience.isOfLine_of_mem_report he
      · next hreserved =>
        split
        · next i hname =>
          have hlog : ∀ e ∈ [Event.logged (.selected choice.label)], e.isOfLine = false := by
            simp [Event.isOfLine]
          exact .of_enter hs (.select hchoice (Bool.eq_false_iff.2 hreserved) hname) rfl hlog
        · rw [Stage.faults_eq_nil hs.stage.isAstray_eq_false]
          exact .of_stage_eq rfl rfl Answer.noConfusion
            fun _ he => Audience.isOfLine_of_mem_report he

/-! ### Going on -/

/-- Between requests, a session is playing if nothing keeps it from going on. -/
theorem Consistent.phase_eq_playing_iff (hs : s.Consistent) :
    s.phase = .playing ↔ s.stage.busy = false ∧ s.stage.pending = [] ∧
      ∃ c, s.stage.conversation? = some c := by
  have hactive : s.stage.current ≠ none ↔ ∃ c, s.stage.conversation? = some c := by
    rw [Ne, ← hs.stage.conversation?_eq_none_iff, ← Option.isSome_iff_exists,
      ← Option.ne_none_iff_isSome]
  rw [phase, Stage.phase_eq_playing_iff, hactive]
  tauto

/-- While it is playing, a session goes on to the next line of its conversation, if
    there is one, and else stops. -/
theorem Consistent.advance_eq (hs : s.Consistent) (hphase : s.phase = .playing) :
    ∃ i c, s.stage.current = some i ∧ s.stage.conversations[i]? = some c ∧
      s.advance h w =
        if s.stage.lineIndex + 1 < c.lines.length then
          s.follow true (s.audience.clear s.stage)
            ((s.stage.facing ⟨s.stage.conversations, i, s.stage.lineIndex + 1⟩).display h
              s.audience w)
        else s.follow true (s.audience.clear s.stage)
          ⟨s.stage.stop, w, s.audience.stop s.stage.clear⟩ := by
  obtain ⟨hbusy, hpending, c, hc⟩ := hs.phase_eq_playing_iff.1 hphase
  obtain ⟨i, hcurrent, hi⟩ := Stage.conversation?_eq_some_iff.1 hc
  have hfree : ¬ (s.stage.busy || !s.stage.pending.isEmpty) = true := by simp [hbusy, hpending]
  have hnext : s.stage.facing ⟨s.stage.conversations, i, s.stage.lineIndex + 1⟩ =
      s.stage.next := by
    rw [Stage.facing, Stage.next, ← hcurrent]
    rfl
  refine ⟨i, c, hcurrent, hi, ?_⟩
  rw [advance, if_neg hfree, hc, hnext]
  rfl

/-- Otherwise it stays where it is, and nothing is heard of it. -/
theorem Consistent.advance_eq_rest (hs : s.Consistent) (hphase : s.phase ≠ .playing) :
    s.advance h w = s.rest w false := by
  rw [Ne, hs.phase_eq_playing_iff] at hphase
  unfold advance
  split
  · rfl
  · next hready =>
    simp only [Bool.or_eq_true, Bool.not_eq_true', List.isEmpty_eq_false_iff, not_or,
      Bool.not_eq_true, ne_eq, not_not] at hready
    split
    · rw [Stage.faults_eq_nil hs.stage.isAstray_eq_false]
      rfl
    · next c hc => exact absurd ⟨hready.1, hready.2, c, hc⟩ hphase

theorem conduct_advance (hs : s.Consistent) :
    s.Conduct h w .advance ((s.advance h w).map .advanced) := by
  by_cases hphase : s.phase = .playing
  · obtain ⟨i, c, hcurrent, hc, hadvance⟩ := hs.advance_eq (h := h) (w := w) hphase
    rw [hadvance]
    by_cases hline : s.stage.lineIndex + 1 < c.lines.length
    · rw [if_pos hline]
      exact .of_display hs (.advance hphase hcurrent hc hline) (.inr ⟨rfl, rfl⟩)
        (fun _ he => Audience.isOfLine_of_mem_clear he) rfl
    · rw [if_neg hline]
      refine .leaves ?_ (.inr ⟨rfl, hphase⟩) rfl ?_
      · rintro (hentered | ⟨-, -, hactive⟩)
        · cases hentered
        · exact hactive rfl
      · intro e he
        rcases List.mem_append.1 he with he | he
        · exact Audience.isOfLine_of_mem_clear he
        · exact Audience.isOfLine_of_mem_stop he
  · rw [hs.advance_eq_rest hphase]
    exact .of_stage_eq rfl rfl (by simp [rest, Turn.map]) (List.forall_mem_nil _)

/-! ### All requests -/

/-- Every request comes to one of the three. -/
theorem conduct_perform (hs : s.Consistent) (a : Action) :
    s.Conduct h w a (s.perform h w a) := by
  cases a with
  | start asset index =>
    refine conduct_start hs ?_ rfl
    rintro chosen set rfl hset hindex
    exact .start hset hindex
  | interact i index =>
    refine conduct_start hs ?_ rfl
    intro chosen set hchosen hset hindex
    exact .interact hchosen hset hindex
  | jump name => exact conduct_jump hs name
  | select index => exact conduct_select hs index
  | advance => exact conduct_advance hs
  | stop =>
    refine .leaves ?_ (.inl rfl) rfl fun _ he => Audience.isOfLine_of_mem_stop he
    rintro (hentered | ⟨hadvance, -⟩)
    · cases hentered
    · cases hadvance
  -- Nothing else is about conversations.
  | finishLine => exact .of_stage_eq rfl rfl Answer.noConfusion (List.forall_mem_nil _)
  | changeVariables change =>
    exact .of_stage_eq rfl rfl Answer.noConfusion (List.forall_mem_nil _)
  | setView view => exact .of_stage_eq rfl rfl Answer.noConfusion (List.forall_mem_nil _)
  | addPlugin => exact .of_stage_eq rfl rfl Answer.noConfusion (List.forall_mem_nil _)
  | addObserver => exact .of_stage_eq rfl rfl Answer.noConfusion (List.forall_mem_nil _)

end Session

end Dialogue
