import Dialogue.Proofs.Caching

/-! # Requests that fail

    A request fails if it is refused, or if it selects a choice that leads
    nowhere. A failed request leaves the stage as it is, and of the listeners only
    the observers hear of it, each in one diagnostic, and only if a choice leads
    nowhere (`Turn.IsFutile`).

    Nor does it show later. A start of an asset that is refused for its index may
    have put another compilation into the cache, but since the cache is not seen,
    every later run looks as if the request had not been made.
-/

namespace Dialogue

variable {σ : Type}

/-! ### Failing -/

/-- The request was refused, or the choice that it selected leads nowhere. -/
def Answer.fails : Answer → Bool
  | .refused _ | .selected .reserved | .selected .unresolved => true
  | _ => false

/-- The diagnostic that an observer hears. -/
def Event.diagnosticTo? (observer : Nat) : Event → Option Diagnostic
  | .diagnosed n d => if n = observer then some d else none
  | _ => none

/-- What is reported of a selection that leads nowhere. -/
inductive Session.Reports (s : Session) : Selection → Diagnostic → Prop
  | reserved : Reports s .reserved .reservedChoice
  | unresolved {choice : Choice} {c : Conversation} (hchoice : choice ∈ s.stage.pending)
      (hc : s.stage.conversation? = some c) :
      Reports s .unresolved (.unresolvedChoice choice.target choice.label c.name)

/-- The turn left the session and the world as they were, but for the cache, and
    little is heard of it. -/
structure Turn.IsFutile (s : Session) (w : σ) (t : Turn σ Answer) : Prop where
  looksLike : t.session.LooksLike s
  world : t.world = w
  /-- View, plugins and functions have no part in it, and no conversation begins
      or ends. -/
  quiet : ∀ e ∈ t.events, e.isQuiet = true
  /-- Of a refusal at most the log keeps something, and only of the cache. -/
  refused : ∀ error, t.answer = .refused error → ∀ e ∈ t.events, e.isCacheNotice = true
  /-- A choice that leads nowhere is reported, once to each observer. -/
  reported : ∀ selection, t.answer = .selected selection → ∃ d, s.Reports selection d ∧
    t.events = s.audience.report d ∧
      ∀ n < s.audience.observers, t.events.filterMap (Event.diagnosticTo? n) = [d]

/-! ### What is heard -/

theorem Event.isQuiet_of_isCacheNotice {e : Event} (h : e.isCacheNotice = true) :
    e.isQuiet = true := by
  cases e <;> first | rfl | cases h

/-- Each observer hears a report once. -/
theorem Audience.filterMap_report {a : Audience} (d : Diagnostic) {n : Nat}
    (hn : n < a.observers) : (a.report d).filterMap (Event.diagnosticTo? n) = [d] :=
  filterMap_tellObservers hn fun _ => rfl

/-! ### Single requests -/

namespace Session

variable {h : Host σ} {s : Session} {w : σ}

/-- A refusal of which at most the log keeps something, and only of the cache. -/
theorem isFutile_of_refused {error : SessionError} {cache : Cache} {events : List Event}
    (hevents : ∀ e ∈ events, e.isCacheNotice = true) :
    Turn.IsFutile s w ⟨.refused error, { s with cache }, w, events⟩ where
  looksLike := ⟨rfl, rfl⟩
  world := rfl
  quiet := fun e he => Event.isQuiet_of_isCacheNotice (hevents e he)
  refused := fun _ _ => hevents
  reported := by
    intro selection hselection
    cases hselection

/-- A refusal of which nothing is heard. -/
theorem isFutile_rest {error : SessionError} :
    Turn.IsFutile s w (s.rest w (Answer.refused error)) :=
  isFutile_of_refused (List.forall_mem_nil _)

theorem isFutile_of_reports {selection : Selection} {d : Diagnostic}
    (hd : s.Reports selection d) :
    Turn.IsFutile s w ⟨.selected selection, s, w, s.audience.report d⟩ where
  looksLike := ⟨rfl, rfl⟩
  world := rfl
  quiet := fun _ he => Audience.isQuiet_of_mem_report he
  refused := by
    intro error herror
    cases herror
  reported := by
    intro selection' hselection
    cases hselection
    exact ⟨d, hd, rfl, fun n hn => Audience.filterMap_report d hn⟩

/-- A start that is refused has come no further than to the cache. -/
theorem isFutile_start (asset : Option Asset) (index : Nat)
    (hfails : ((s.start h w asset index).map (Answer.ofExcept fun _ => .done)).answer.fails = true) :
    ((s.start h w asset index).map (Answer.ofExcept fun _ => .done)).IsFutile s w := by
  cases asset with
  | none => exact isFutile_rest
  | some asset =>
    have hevents : ∀ e ∈ (s.cache.fetch asset s.stage.globals).notices.map Event.logged,
        e.isCacheNotice = true := fun _ he => Cache.isCacheNotice_of_mem_fetch he
    revert hfails
    rw [start]
    split
    · intro _
      exact isFutile_of_refused hevents
    · split
      · -- An index in range is no failure.
        intro hfails
        cases hfails
      · intro _
        exact isFutile_of_refused hevents

theorem isFutile_jump (name : Text)
    (hfails : ((s.jump h w name).map (Answer.ofExcept fun _ => .done)).answer.fails = true) :
    ((s.jump h w name).map (Answer.ofExcept fun _ => .done)).IsFutile s w := by
  revert hfails
  unfold jump
  split
  · intro _
    exact isFutile_rest
  · split
    · intro _
      exact isFutile_rest
    · intro hfails
      cases hfails

/-- Choices are only pending while a conversation is active. -/
theorem Consistent.exists_conversation? (hs : s.Consistent) (hpending : s.stage.pending ≠ []) :
    ∃ c, s.stage.conversation? = some c := by
  rw [← Option.isSome_iff_exists, ← Option.ne_none_iff_isSome]
  intro hnone
  exact hpending (hs.stage.idle (hs.stage.conversation?_eq_none_iff.1 hnone)).pending

theorem isFutile_select (hs : s.Consistent) (index : Nat)
    (hfails : ((s.select h w index).map (Answer.ofExcept .selected)).answer.fails = true) :
    ((s.select h w index).map (Answer.ofExcept .selected)).IsFutile s w := by
  revert hfails
  unfold select
  split
  · intro _
    exact isFutile_rest
  · split
    · intro _
      exact isFutile_rest
    · next choice hchoice =>
      have hmem : choice ∈ s.stage.pending := List.mem_of_getElem? hchoice
      split
      · intro _
        exact isFutile_of_reports .reserved
      · split
        · intro hfails
          cases hfails
        · intro _
          obtain ⟨c, hc⟩ := hs.exists_conversation? (List.ne_nil_of_mem hmem)
          rw [hc, Stage.faults_eq_nil hs.stage.isAstray_eq_false]
          exact isFutile_of_reports (.unresolved hmem hc)

/-- A failed request is futile, whichever it was. -/
theorem isFutile_perform (hs : s.Consistent) (a : Action)
    (hfails : (s.perform h w a).answer.fails = true) : (s.perform h w a).IsFutile s w := by
  cases a with
  | start asset index => exact isFutile_start asset index hfails
  | interact i index => exact isFutile_start i.dialogues[index]? 0 hfails
  | jump name => exact isFutile_jump name hfails
  | select index => exact isFutile_select hs index hfails
  -- All other requests are followed, whatever they come to.
  | stop => cases hfails
  | advance => cases hfails
  | finishLine => cases hfails
  | changeVariables change => cases hfails
  | setView view => cases hfails
  | addPlugin => cases hfails
  | addObserver => cases hfails

/-- Runs from sessions that look alike look alike themselves, whatever their caches
    hold. -/
theorem seen_turns_eq {s' : Session} (hs : s.Consistent) (hs' : s'.Consistent)
    (hlooks : s.LooksLike s') (w : σ) (actions : List Action) :
    (s.turns h w actions).map Turn.seen = (s'.turns h w actions).map Turn.seen := by
  -- Compiling anew does not ask for the cache, so both runs look like one that does.
  have hleft := seen_turns (h := h) hs hlooks w actions
  have hright := seen_turns (h := h) hs' (⟨rfl, rfl⟩ : s'.LooksLike s') w actions
  rw [hleft, hright]

end Session

/-- Whatever a session has been through, a request that fails leaves it as it was.
    The stage, the listeners and the world stay, and nothing is heard of it but
    one diagnostic by each observer where a choice leads nowhere. Every later run
    looks as if the request had not been made. -/
theorem failed_request_unseen (h : Host σ) (globals : Variables) (w : σ) (past : List Action)
    (a : Action) :
    let now := (Session.new globals).run h w past
    let t := now.session.perform h now.world a
    t.answer.fails = true →
      t.IsFutile now.session now.world ∧
      ∀ later, (t.session.turns h t.world later).map Turn.seen =
        (now.session.turns h now.world later).map Turn.seen := by
  intro now t hfails
  have hnow : now.session.Consistent := ((Session.consistent_new globals).run h w past).1
  have hafter : t.session.Consistent := (hnow.perform h now.world a).1
  have hfutile : t.IsFutile now.session now.world := Session.isFutile_perform hnow a hfails
  refine ⟨hfutile, ?_⟩
  intro later
  -- The caches may differ by now, so that the sessions are alike but not equal.
  rw [hfutile.world]
  exact Session.seen_turns_eq hafter hnow hfutile.looksLike now.world later

/-! A gate whose script is edited while its conversation is on. The edited script
    is refused for its index, and yet it has taken the place of the other one in
    the cache. -/

/-- The script of the gate. -/
def gateScript : Asset where
  name := "Gate".toList
  source := String.toList "\x7b\x7bConversationName(Gate)\x7d\x7d
Halt!"

/-- The script of the gate after the edit. -/
def editedGateScript : Asset where
  name := "Gate".toList
  source := String.toList "\x7b\x7bConversationName(Gate)\x7d\x7d
Pass on."

/-- A host without functions, whose view is still busy with each line. -/
def slowHost : Host Unit where
  functions := ∅
  reveal := fun _ _ w => (.revealing, w)

/-- The cache has to compile the script of the gate again, but that is all. -/
theorem failed_request_unseen_gate :
    let now := (Session.new ∅).run slowHost () [.start (some gateScript) 0]
    let t := now.session.perform slowHost now.world (.start (some editedGateScript) 1)
    t.answer = .refused (.outOfRange 1 1) ∧
    (now.session.cache.lookup? gateScript ∅).isSome = true ∧
    (t.session.cache.lookup? gateScript ∅).isSome = false ∧
    t.IsFutile now.session now.world ∧
    ∀ later, (t.session.turns slowHost t.world later).map Turn.seen =
      (now.session.turns slowHost now.world later).map Turn.seen := by
  intro now t
  have hanswer : t.answer = .refused (.outOfRange 1 1) := by decide +kernel
  have hbefore : (now.session.cache.lookup? gateScript ∅).isSome = true := by decide +kernel
  have hbehind : (t.session.cache.lookup? gateScript ∅).isSome = false := by decide +kernel
  have hfails : t.answer.fails = true := congrArg Answer.fails hanswer
  exact ⟨hanswer, hbefore, hbehind, failed_request_unseen slowHost ∅ ()
    [.start (some gateScript) 0] (.start (some editedGateScript) 1) hfails⟩

end Dialogue
