import Dialogue.Proofs.Acceptance
import Dialogue.Session.Action

/-! # Moves of a session

    There are many requests, but few things that a session can do about one. It
    stays where it is, and at most writes to the log or reports a fault in the
    content; it stops; it goes on to the next line; it leaves the last one; or
    it enters a conversation at its first line. `Stage.Move` says what each of
    these comes to, with the conditions under which it happens, and
    `Session.move_perform` that every request comes to one of them. What is true
    of all requests is shown of the moves.

    The conversations that a session enters come from its cache. What makes the
    cache as good as the compiler is that each entry holds what its own source
    compiles to under its own variables.
-/

namespace Dialogue

variable {σ : Type}

/-! ### The cache -/

/-- Some script compiles to these conversations under some variables. -/
def IsCompiled (set : List Conversation) : Prop :=
  ∃ globals source, compile globals source = .ok set

namespace Cache

/-- Each entry holds what its source compiles to under its variables. -/
def Sound (c : Cache) : Prop :=
  ∀ (name : Text) (e : CacheEntry), c.entries[name]? = some e →
    compile e.globals e.source = .ok e.set.conversations

theorem sound_empty : Sound empty := by
  intro name e h
  simp [empty] at h

theorem Sound.store {c : Cache} (hc : c.Sound) {asset : Asset} {globals : Variables}
    {set : List Conversation} (hset : compile globals asset.source = .ok set) :
    (c.store asset globals set).Sound := by
  intro name e he
  simp only [Cache.store, Std.ExtTreeMap.getElem?_insert] at he
  split at he
  · cases he
    exact hset
  · exact hc name e he

/-- A sound cache answers what the compiler would. -/
theorem Sound.lookup?_eq_some {c : Cache} (hc : c.Sound) {asset : Asset} {globals : Variables}
    {set : CompiledSet} (h : c.lookup? asset globals = some set) :
    compile globals asset.source = .ok set.conversations := by
  unfold lookup? at h
  split at h
  · cases h
  · next e he =>
    split at h
    · next heq =>
      cases h
      rw [← heq.1, ← heq.2]
      exact hc asset.name e he
    · cases h

theorem Sound.fetch {c : Cache} (hc : c.Sound) (asset : Asset) (globals : Variables) :
    (c.fetch asset globals).cache.Sound ∧
    (c.fetch asset globals).result.map CompiledSet.conversations =
      compile globals asset.source := by
  unfold Cache.fetch
  split
  · next set hset => exact ⟨hc, (hc.lookup?_eq_some hset).symm⟩
  · split
    · next e he => exact ⟨hc, he.symm⟩
    · next set hset => exact ⟨hc.store hset, hset.symm⟩

theorem Sound.exists_fetch {c : Cache} (hc : c.Sound) {asset : Asset} {globals : Variables}
    {set : List Conversation} (hset : compile globals asset.source = .ok set) :
    ∃ compiled : CompiledSet, (c.fetch asset globals).result = .ok compiled ∧
      compiled.conversations = set := by
  have hresult := (hc.fetch asset globals).2
  rw [hset] at hresult
  cases hfetched : (c.fetch asset globals).result with
  | error e =>
    rw [hfetched] at hresult
    cases hresult
  | ok compiled =>
    rw [hfetched] at hresult
    exact ⟨compiled, rfl, Except.ok.inj hresult⟩

end Cache

/-! ### Quiet events -/

/-- An entry of the log or a diagnostic. View, plugins and functions have no part
    in it, and no conversation begins or ends with it. -/
def Event.isQuiet : Event → Bool
  | .logged _ | .diagnosed .. => true
  | _ => false

theorem Event.isQuiet_of_mem_logged {notices : List Notice} {e : Event}
    (h : e ∈ notices.map Event.logged) : e.isQuiet = true := by
  obtain ⟨n, -, rfl⟩ := List.mem_map.1 h
  rfl

theorem Audience.isQuiet_of_mem_report {a : Audience} {d : Diagnostic} {e : Event}
    (h : e ∈ a.report d) : e.isQuiet = true := by
  rcases List.mem_cons.1 h with rfl | h
  · rfl
  · obtain ⟨n, -, rfl⟩ := List.mem_map.1 h
    rfl

/-- Of what all listeners of one kind are told, each hears its own part, once. -/
theorem Event.filterMap_map_range {α : Type} {k n : Nat} (hn : n < k) {e : Nat → Event}
    {hears : Event → Option α} {x : α} (he : ∀ m, hears (e m) = if m = n then some x else none) :
    ((List.range k).map e).filterMap hears = [x] := by
  -- The number of the listener comes once among all of them.
  have hone : (List.range k).filter (· == n) = [n] := by
    rw [List.filter_beq, List.nodup_range.count, if_pos (List.mem_range.2 hn)]
    rfl
  have hhears : hears ∘ e = fun m => (Option.guard (· == n) m).map fun _ => x := by
    funext m
    show hears (e m) = _
    rw [he m]
    by_cases hm : m = n <;> simp [Option.guard, hm]
  rw [List.filterMap_map, hhears, ← List.map_filterMap, List.filterMap_eq_filter, hone]
  rfl

theorem Audience.filterMap_tellObservers {α : Type} {a : Audience} {n : Nat}
    (hn : n < a.observers) {e : Nat → Event} {hears : Event → Option α} {x : α}
    (he : ∀ m, hears (e m) = if m = n then some x else none) :
    (a.tellObservers e).filterMap hears = [x] :=
  Event.filterMap_map_range hn he

theorem Stage.faults_eq_nil {s : Stage} (h : s.isAstray = false) : s.faults = [] := by
  rw [Stage.faults, h]
  rfl

/-! ### Moves -/

/-- An outcome with events before it. -/
def Outcome.after (events : List Event) (o : Outcome σ) : Outcome σ :=
  { o with events := events ++ o.events }

namespace Stage

/-- The stage at the next line, with an empty dialogue box. -/
def next (s : Stage) : Stage := { s.clear with lineIndex := s.lineIndex + 1 }

/-- What a session with this audience can do on a stage and in a world: the stage
    and the world that it comes to, and the events on the way. -/
inductive Move (h : Host σ) (a : Audience) (s : Stage) (w : σ) : Outcome σ → Prop
  /-- It stays. The variables may change, and the view may have brought out the
      line. -/
  | stay (globals : Variables) (busy : Bool) (events : List Event)
      (hbusy : busy = s.busy ∨ busy = false) (hquiet : ∀ e ∈ events, e.isQuiet = true) :
      Move h a s w ⟨{ s with globals, busy }, w, events⟩
  /-- It stops, from wherever it is. -/
  | stop : Move h a s w ⟨s.stop, w, a.stop s⟩
  /-- It goes on to the next line. -/
  | next (c : Conversation) (hc : s.conversation? = some c) (hbusy : s.busy = false)
      (hpending : s.pending = []) (hline : s.lineIndex + 1 < c.lines.length) :
      Move h a s w ((s.next.display h a w).after (a.clear s))
  /-- It leaves the last line. -/
  | leave (c : Conversation) (hc : s.conversation? = some c) (hbusy : s.busy = false)
      (hpending : s.pending = []) (hline : c.lines.length ≤ s.lineIndex + 1) :
      Move h a s w ⟨s.clear.stop, w, a.clear s ++ a.stop s.clear⟩
  /-- It enters a conversation, of the set that it has or of a new one. -/
  | enter (before : List Event) (set : List Conversation) (index : Nat)
      (hquiet : ∀ e ∈ before, e.isQuiet = true) (hset : set = s.conversations ∨ IsCompiled set)
      (hindex : index < set.length) :
      Move h a s w (((s.enter set index).display h a w).after
        (before ++ (a.stop s ++ a.announce (s.enter set index))))

end Stage

/-- What a turn comes to, apart from its answer. -/
def Turn.outcome {α : Type} (t : Turn σ α) : Outcome σ := ⟨t.session.stage, t.world, t.events⟩

/-! ### Every request is a move -/

namespace Session

variable {h : Host σ} {s : Session} {w : σ}

/-- What is true of the turn that answers a request: it is a move, and it leaves
    the cache as good as it was and the listeners where they are. -/
structure Follows {α : Type} (h : Host σ) (s : Session) (w : σ) (t : Turn σ α) : Prop where
  move : s.stage.Move h s.audience w t.outcome
  sound : t.session.cache.Sound
  audience : t.session.audience = s.audience

/-- A turn that keeps the stage and is heard of in the log and in diagnostics
    only. -/
theorem follows_of_quiet {α : Type} {answer : α} {cache : Cache} {events : List Event}
    (hcache : cache.Sound) (hquiet : ∀ e ∈ events, e.isQuiet = true) :
    s.Follows h w (⟨answer, { s with cache }, w, events⟩ : Turn σ α) where
  move := .stay s.stage.globals s.stage.busy events (.inl rfl) hquiet
  sound := hcache
  audience := rfl

theorem follows_enter {α : Type} {answer : α} {cache : Cache} {set : List Conversation}
    {index : Nat} {before : List Event} (hcache : cache.Sound)
    (hquiet : ∀ e ∈ before, e.isQuiet = true)
    (hset : set = s.stage.conversations ∨ IsCompiled set) (hindex : index < set.length) :
    s.Follows h w
      (({ s with cache } : Session).follow answer before (s.enter h w set index)) where
  move := by
    have hmove := Stage.Move.enter (h := h) (a := s.audience) (w := w) before set index hquiet
      hset hindex
    rw [Outcome.after, List.append_assoc] at hmove
    exact hmove
  sound := hcache
  audience := rfl

theorem Follows.map {α β : Type} {f : α → β} {t : Turn σ α} (ht : s.Follows h w t) :
    s.Follows h w (t.map f) :=
  ⟨ht.move, ht.sound, ht.audience⟩

theorem follows_start (hcache : s.cache.Sound) (asset : Option Asset) (index : Nat) :
    s.Follows h w (s.start h w asset index) := by
  cases asset with
  | none => exact follows_of_quiet hcache (by simp)
  | some asset =>
    obtain ⟨hsound, hresult⟩ := hcache.fetch asset s.stage.globals
    have hquiet : ∀ e ∈ (s.cache.fetch asset s.stage.globals).notices.map Event.logged,
        e.isQuiet = true := fun _ he => Event.isQuiet_of_mem_logged he
    -- What was compiled is kept even where the stage is left as it was.
    rw [start]
    split
    · exact follows_of_quiet hsound hquiet
    · next set hset =>
      rw [hset] at hresult
      split
      · next hindex =>
        exact follows_enter hsound hquiet (.inr ⟨_, _, hresult.symm⟩) hindex
      · exact follows_of_quiet hsound hquiet

/-- A conversation that is found by its name has a place in the set. -/
theorem lt_of_index?_eq_some {set : List Conversation} {name : Text} {i : Nat}
    (hi : Conversation.index? set name = some i) : i < set.length := by
  obtain ⟨c, hc, -⟩ := Conversation.index?_eq_some hi
  exact (List.getElem?_eq_some_iff.1 hc).1

theorem follows_jump (hcache : s.cache.Sound) (name : Text) :
    s.Follows h w (s.jump h w name) := by
  unfold jump
  split
  · exact follows_of_quiet hcache (by simp)
  · split
    · exact follows_of_quiet hcache (by simp)
    · next hindex =>
      exact follows_enter hcache (by simp) (.inl rfl) (lt_of_index?_eq_some hindex)

theorem follows_advance (hcache : s.cache.Sound) (hstray : s.stage.isAstray = false) :
    s.Follows h w (s.advance h w) := by
  unfold advance
  split
  · exact follows_of_quiet hcache (by simp)
  · next hready =>
    simp only [Bool.or_eq_true, Bool.not_eq_true', List.isEmpty_eq_false_iff, not_or,
      Bool.not_eq_true, ne_eq, not_not] at hready
    obtain ⟨hbusy, hpending⟩ := hready
    split
    · -- No conversation is active, and none is pointed at either.
      rw [Stage.faults_eq_nil hstray]
      exact follows_of_quiet hcache (by simp)
    · next c hc =>
      dsimp only
      split
      · next hline => exact ⟨.next c hc hbusy hpending hline, hcache, rfl⟩
      · next hline => exact ⟨.leave c hc hbusy hpending (Nat.le_of_not_lt hline), hcache, rfl⟩

theorem follows_select (hcache : s.cache.Sound) (hstray : s.stage.isAstray = false)
    (index : Nat) : s.Follows h w (s.select h w index) := by
  unfold select
  split
  · exact follows_of_quiet hcache (by simp)
  · split
    · exact follows_of_quiet hcache (by simp)
    · -- A reserved target and one that nothing has the name of come to a report.
      split
      · exact follows_of_quiet hcache fun _ he => Audience.isQuiet_of_mem_report he
      · split
        · next hindex =>
          exact follows_enter hcache (by simp [Event.isQuiet]) (.inl rfl)
            (lt_of_index?_eq_some hindex)
        · simp only [Stage.faults_eq_nil hstray, List.nil_append]
          exact follows_of_quiet hcache fun _ he => Audience.isQuiet_of_mem_report he

end Session

/-- Whether the request attaches or replaces a listener. -/
def Action.attends : Action → Bool
  | .setView _ | .addPlugin | .addObserver => true
  | _ => false

namespace Session

variable {h : Host σ} {s : Session} {w : σ}

/-- Every request other than for a listener is answered by a move. -/
theorem follows_perform (hcache : s.cache.Sound) (hstray : s.stage.isAstray = false)
    {a : Action} (ha : a.attends = false) : s.Follows h w (s.perform h w a) := by
  cases a with
  | start asset index => exact (follows_start hcache asset index).map
  | interact i index => exact (follows_start hcache i.dialogues[index]? 0).map
  | stop => exact ⟨.stop, hcache, rfl⟩
  | jump name => exact (follows_jump hcache name).map
  | advance => exact (follows_advance hcache hstray).map
  | finishLine => exact ⟨.stay s.stage.globals false [] (.inr rfl) (by simp), hcache, rfl⟩
  | select index => exact (follows_select hcache hstray index).map
  | changeVariables change =>
    exact ⟨.stay (change s.stage.globals) s.stage.busy [] (.inl rfl) (by simp), hcache, rfl⟩
  | setView view => cases ha
  | addPlugin => cases ha
  | addObserver => cases ha

/-- A request for a listener leaves the stage and the world alone, and nothing
    is heard of it. -/
theorem perform_of_attends {a : Action} (ha : a.attends = true) :
    (s.perform h w a).outcome = ⟨s.stage, w, []⟩ ∧
      (s.perform h w a).session.cache = s.cache := by
  cases a with
  | setView view => exact ⟨rfl, rfl⟩
  | addPlugin => exact ⟨rfl, rfl⟩
  | addObserver => exact ⟨rfl, rfl⟩
  | _ => cases ha

/-- Every request at all comes to a move and leaves the cache as good as it
    was. -/
theorem move_perform (hcache : s.cache.Sound) (hstray : s.stage.isAstray = false) (a : Action) :
    s.stage.Move h s.audience w (s.perform h w a).outcome ∧
      (s.perform h w a).session.cache.Sound := by
  cases ha : a.attends with
  | false =>
    have hfollows := follows_perform (h := h) (w := w) hcache hstray ha
    exact ⟨hfollows.move, hfollows.sound⟩
  | true =>
    obtain ⟨houtcome, hsame⟩ := perform_of_attends (h := h) (s := s) (w := w) ha
    rw [houtcome, hsame]
    exact ⟨.stay s.stage.globals s.stage.busy [] (.inl rfl) (by simp), hcache⟩

/-! ### Runs -/

/-- Requests can be followed in two parts. -/
theorem run_append (h : Host σ) (s : Session) (w : σ) (as bs : List Action) :
    s.run h w (as ++ bs) =
      let t := s.run h w as
      let u := t.session.run h t.world bs
      ⟨t.answer ++ u.answer, u.session, u.world, t.events ++ u.events⟩ := by
  induction as generalizing s w with
  | nil => rfl
  | cons a as ih =>
    rw [List.cons_append, run, run, ih]
    simp only [List.cons_append, List.append_assoc]

/-- What holds at first, and with each allowed request holds again of the session
    and of all events so far, holds at the end of every run. -/
theorem run_induction {allowed : Action → Prop} {P : Session → List Event → Prop}
    (hstep : ∀ s w past a, allowed a → P s past →
      P (s.perform h w a).session (past ++ (s.perform h w a).events))
    {actions : List Action} (hallowed : ∀ a ∈ actions, allowed a) {past : List Event}
    (hs : P s past) :
    P (s.run h w actions).session (past ++ (s.run h w actions).events) := by
  induction actions generalizing s w past with
  | nil =>
    show P s (past ++ [])
    rw [List.append_nil]
    exact hs
  | cons a rest ih =>
    -- The past of the rest is the past so far with what the first request adds.
    have hfirst := hstep s w past a (hallowed a List.mem_cons_self) hs
    have hlater := ih (fun b hb => hallowed b (List.mem_cons_of_mem a hb))
      (w := (s.perform h w a).world) hfirst
    rw [List.append_assoc] at hlater
    exact hlater

end Session

end Dialogue
