import Dialogue.Proofs.Arrival
import Dialogue.Proofs.Futility
import Dialogue.Proofs.Hosts
import Dialogue.Proofs.Reach

/-! # Starting over

    A start leaves nothing of what was before. Take two sessions with whatever pasts
    that have the same variables and the same listeners by now, and whose hosts answer
    alike from now on. Both answer a start in the same way. If they follow it, they are
    from then on not to be told apart (`start_resets`): they announce the same
    conversation, after that the same is heard of both, their stages are the same, and
    they stay so whatever is asked of them.

    What a start opens can be told from the variables and the asset alone
    (`Session.opening`), since whatever the caches hold is as good as compiling. And
    the stage that it enters has nothing of the one before but the variables
    (`Stage.enter_eq`).
-/

namespace Dialogue

variable {σ τ : Type} {R : σ → τ → Prop}

/-! ### Turns of two sessions -/

/-- The turns look the same, but for the worlds, which are related. -/
structure Turn.LooksLike {α : Type} (R : σ → τ → Prop) (t : Turn σ α) (t' : Turn τ α) : Prop where
  answer : t.answer = t'.answer
  session : t.session.LooksLike t'.session
  world : R t.world t'.world
  events : t.seen.events = t'.seen.events

/-- The event tells that a conversation begins. -/
def Event.isBeginning : Event → Bool
  | .started .. | .logged (.starting _) => true
  | _ => false

/-- Both turns begin the same conversation, and the same is heard of them from its
    announcement on. -/
structure Turn.BeginsLike (R : σ → τ → Prop) (t : Turn σ Answer) (t' : Turn τ Answer) :
    Prop where
  session : t.session.LooksLike t'.session
  world : R t.world t'.world
  heard : ∃ c before before' after, t.session.stage.conversation? = some c ∧
    (∀ e ∈ before, Event.isBeginning e = false) ∧ (∀ e ∈ before', Event.isBeginning e = false) ∧
    let begins := .logged (.starting c.name) :: t.session.audience.tellObservers (.started · c)
    t.events = before ++ (begins ++ after) ∧ t'.events = before' ++ (begins ++ after)

theorem Event.isBeginning_of_isClosing {e : Event} (he : e.isClosing = true) :
    e.isBeginning = false := by
  unfold isClosing at he
  split at he <;> first | rfl | cases he

theorem Event.isBeginning_of_isCacheNotice {e : Event} (he : e.isCacheNotice = true) :
    e.isBeginning = false := by
  unfold isCacheNotice at he
  split at he <;> first | rfl | cases he

/-- Turns of one host that look alike, and one of another that answers alike. -/
theorem Turn.Alike.looksLike {α : Type} {t u : Turn σ α} {t' : Turn τ α} (hu : u.Alike R t')
    (hseen : t.seen = u.seen) : t.LooksLike R t' where
  answer := (congrArg Sight.answer hseen).trans hu.answer
  session := by
    rw [← hu.session]
    exact ⟨congrArg Sight.stage hseen, congrArg Sight.audience hseen⟩
  world := by
    have hworld : t.world = u.world := congrArg Sight.world hseen
    rw [hworld]
    exact hu.world
  events := by
    rw [hseen, Turn.seen, Turn.seen, hu.events]

theorem Turn.forall₂_looksLike {ts us : List (Turn σ Answer)} {vs : List (Turn τ Answer)}
    (hseen : ts.map Turn.seen = us.map Turn.seen) (hus : List.Forall₂ (Turn.Alike R) us vs) :
    List.Forall₂ (Turn.LooksLike R) ts vs := by
  induction hus generalizing ts with
  | nil =>
    rw [List.map_nil, List.map_eq_nil_iff] at hseen
    rw [hseen]
    exact .nil
  | cons halike _ ih =>
    cases ts with
    | nil => cases hseen
    | cons t ts =>
      obtain ⟨hfirst, hrest⟩ := List.cons.inj hseen
      exact .cons (halike.looksLike hfirst) (ih hrest)

/-- Sessions that look alike, under hosts that answer alike, are not to be told apart. -/
theorem Session.turns_looksLike {h : Host σ} {k : Host τ} {s s' : Session} {w : σ} {v : τ}
    (hk : h.Alike R k) (hs : s.Consistent) (hs' : s'.Consistent) (hlooks : s.LooksLike s')
    (hw : R w v) (actions : List Action) :
    List.Forall₂ (Turn.LooksLike R) (s.turns h w actions) (s'.turns k v actions) :=
  Turn.forall₂_looksLike (seen_turns_eq hs hs' hlooks w actions) (hk.turns actions hw)

/-! ### Starts -/

/-- A stage that enters a conversation keeps nothing but the variables. -/
theorem Stage.enter_eq {s s' : Stage} (hglobals : s.globals = s'.globals)
    (set : List Conversation) (index : Nat) : s.enter set index = s'.enter set index := by
  unfold enter stop clear
  rw [hglobals]

namespace Session

variable {h : Host σ} {k : Host τ} {s s' : Session} {w : σ} {v : τ} {index : Nat}

/-- Of entering a conversation everything before its announcement is about the cache or
    the conversation before. -/
theorem events_enter {set : List Conversation} (hset : IsCompiled set)
    (hindex : index < set.length) {notices : List Event}
    (hnotices : ∀ e ∈ notices, e.isCacheNotice = true) :
    ∃ before, (∀ e ∈ before, Event.isBeginning e = false) ∧
      notices ++ (s.enter h w set index).events = before ++
        (.logged (.starting set[index].name) :: s.audience.tellObservers (.started · set[index]) ++
          ((s.stage.enter set index).display h s.audience w).events) := by
  have hc := (s.stage.enter_line? hset hindex).1
  refine ⟨notices ++ s.audience.stop s.stage, ?_, ?_⟩
  · intro e he
    rcases List.mem_append.1 he with he | he
    · exact Event.isBeginning_of_isCacheNotice (hnotices e he)
    · exact Event.isBeginning_of_isClosing (Audience.isClosing_of_mem_stop he)
  · unfold enter
    dsimp only
    rw [Audience.announce, hc, List.append_assoc, List.append_assoc]

/-- Sessions that enter the same conversation begin alike, if their variables and
    listeners are the same. -/
theorem beginsLike_follow (hk : h.Alike R k) (hw : R w v)
    (hglobals : s.stage.globals = s'.stage.globals) (haudience : s.audience = s'.audience)
    {set : List Conversation} (hset : IsCompiled set) (hindex : index < set.length)
    {cache cache' : Cache} {notices notices' : List Event}
    (hnotices : ∀ e ∈ notices, e.isCacheNotice = true)
    (hnotices' : ∀ e ∈ notices', e.isCacheNotice = true) (answer : Answer) :
    (({ s with cache } : Session).follow answer notices (s.enter h w set index)).BeginsLike R
      (({ s' with cache := cache' } : Session).follow answer notices'
        (s'.enter k v set index)) := by
  obtain ⟨hc, l, hl⟩ := s.stage.enter_line? hset hindex
  obtain ⟨before, hbefore, hevents⟩ :=
    events_enter (h := h) (s := s) (w := w) hset hindex hnotices
  obtain ⟨before', hbefore', hevents'⟩ :=
    events_enter (h := k) (s := s') (w := v) hset hindex hnotices'
  -- Both display on the same stage, since of what was before only the variables stay.
  have hdisplay : ((s.stage.enter set index).display h s.audience w).Alike R
      ((s'.stage.enter set index).display k s'.audience v) := by
    rw [← Stage.enter_eq hglobals, ← haudience]
    exact hk.display s.audience (s.stage.enter set index) hw
  refine ⟨⟨hdisplay.stage, haudience⟩, hdisplay.world, ?_⟩
  refine ⟨set[index], before, before', _, ?_, hbefore, hbefore', hevents, ?_⟩
  · show ((s.stage.enter set index).display h s.audience w).stage.conversation? = _
    rw [Stage.display_eq_displayLine hc hl]
    exact hc
  · rw [hdisplay.events]
    show _ = before' ++ (.logged _ :: s.audience.tellObservers _ ++ _)
    rw [haudience]
    exact hevents'

/-- Two starts of the same asset come to the same. -/
theorem start_alike (hk : h.Alike R k) (hs : s.Consistent) (hs' : s'.Consistent) (hw : R w v)
    (hglobals : s.stage.globals = s'.stage.globals) (haudience : s.audience = s'.audience)
    (asset : Option Asset) (index : Nat) :
    let t := s.perform h w (.start asset index)
    let t' := s'.perform k v (.start asset index)
    t.answer = t'.answer ∧ (t.answer = .done → t.BeginsLike R t') := by
  obtain ⟨cache, notices, hnotices, hstart⟩ := hs.start_eq (h := h) (w := w) asset index
  obtain ⟨cache', notices', hnotices', hstart'⟩ := hs'.start_eq (h := k) (w := v) asset index
  simp only [perform, hstart, hstart', hglobals]
  cases hopening : opening s'.stage.globals asset index with
  | error e =>
    refine ⟨rfl, ?_⟩
    intro hdone
    cases hdone
  | ok set =>
    obtain ⟨chosen, -, hset, hindex⟩ := exists_of_opening_eq_ok hopening
    refine ⟨rfl, ?_⟩
    intro _
    exact beginsLike_follow hk hw hglobals haudience ⟨_, _, hset⟩ hindex hnotices hnotices' .done

end Session

/-- Whatever two sessions have been through, if they have the same variables and the same
    listeners by now, and their hosts answer alike from now on, then both answer a start in
    the same way. If it is followed, they begin the same conversation and look alike, the
    same is heard of both from its announcement on, and all later turns look the same. -/
theorem start_resets {h : Host σ} {k : Host τ} (hk : h.Alike R k) (globals globals' : Variables)
    (w : σ) (v : τ) (past past' : List Action) (asset : Option Asset) (index : Nat) :
    let now := (Session.new globals).run h w past
    let now' := (Session.new globals').run k v past'
    let t := now.session.perform h now.world (.start asset index)
    let t' := now'.session.perform k now'.world (.start asset index)
    R now.world now'.world → now.session.stage.globals = now'.session.stage.globals →
      now.session.audience = now'.session.audience →
      t.answer = t'.answer ∧
        (t.answer = .done → t.BeginsLike R t' ∧
          ∀ later, List.Forall₂ (Turn.LooksLike R) (t.session.turns h t.world later)
            (t'.session.turns k t'.world later)) := by
  intro now now' t t' hworld hglobals haudience
  have hnow : now.session.Consistent := ((Session.consistent_new globals).run h w past).1
  have hnow' : now'.session.Consistent := ((Session.consistent_new globals').run k v past').1
  obtain ⟨hanswer, hbegins⟩ :=
    Session.start_alike hk hnow hnow' hworld hglobals haudience asset index
  refine ⟨hanswer, ?_⟩
  intro hdone
  have hbegin : t.BeginsLike R t' := hbegins hdone
  refine ⟨hbegin, ?_⟩
  intro later
  have hafter : t.session.Consistent := (hnow.perform h now.world _).1
  have hafter' : t'.session.Consistent := (hnow'.perform k now'.world _).1
  exact Session.turns_looksLike hk hafter hafter' hbegin.session hbegin.world later

/-! A session whose view is still busy with the gate, and one that has come to a choice
    elsewhere, and whose cache holds the script of the gate after the edit. -/

/-- A host without functions, whose view is done at once with every other line. The world
    is whether it takes its time with the next one. -/
def fickleHost : Host Bool where
  functions := ∅
  reveal := fun _ _ slow => (if slow then .revealing else .complete, !slow)

/-- The view takes its time with a line if the number of lines before is even. -/
theorem alike_fickleHost :
    fitfulHost.Alike (fun n slow => slow = decide (n % 2 = 0)) fickleHost where
  functions := by
    intro name
    simp only [fitfulHost, fickleHost, Std.ExtTreeMap.getElem?_empty]
    exact .none
  reveal := by
    rintro view line n slow rfl
    refine ⟨by simp [fitfulHost, fickleHost], ?_⟩
    show (!decide (n % 2 = 0)) = decide ((n + 1) % 2 = 0)
    rw [← decide_not, decide_eq_decide]
    omega

/-- The first session finds the script in its cache and the second has to compile it, and
    that is all. -/
theorem start_resets_gate :
    let now := (Session.new ∅).run fitfulHost 0
      [.setView (some []), .addObserver, .start (some gateScript) 0]
    let now' := (Session.new ∅).run fickleHost true
      [.addObserver, .setView (some []), .start (some editedGateScript) 0,
        .start (some cutOffScript) 0, .advance]
    let t := now.session.perform fitfulHost now.world (.start (some gateScript) 0)
    let t' := now'.session.perform fickleHost now'.world (.start (some gateScript) 0)
    now.session.phase = .lineBusy ∧ now'.session.phase = .choicePending ∧
    (now.session.cache.lookup? gateScript ∅).isSome = true ∧
    (now'.session.cache.lookup? gateScript ∅).isSome = false ∧
    t.BeginsLike (fun n slow => slow = decide (n % 2 = 0)) t' ∧
    ∀ later, List.Forall₂ (Turn.LooksLike fun n slow => slow = decide (n % 2 = 0))
      (t.session.turns fitfulHost t.world later) (t'.session.turns fickleHost t'.world later) := by
  intro now now' t t'
  have hbusy : now.session.phase = .lineBusy := by decide +kernel
  have hpending : now'.session.phase = .choicePending := by decide +kernel
  have hkept : (now.session.cache.lookup? gateScript ∅).isSome = true := by decide +kernel
  have hstale : (now'.session.cache.lookup? gateScript ∅).isSome = false := by decide +kernel
  have hworld : now'.world = decide (now.world % 2 = 0) := by decide +kernel
  have hglobals : now.session.stage.globals = now'.session.stage.globals := by decide +kernel
  have haudience : now.session.audience = now'.session.audience := by decide +kernel
  have hdone : t.answer = .done := by decide +kernel
  have hstarts := start_resets alike_fickleHost ∅ ∅ 0 true
    [.setView (some []), .addObserver, .start (some gateScript) 0]
    [.addObserver, .setView (some []), .start (some editedGateScript) 0,
      .start (some cutOffScript) 0, .advance]
    (some gateScript) 0 hworld hglobals haudience
  exact ⟨hbusy, hpending, hkept, hstale, hstarts.2 hdone⟩

end Dialogue
