import Dialogue.Proofs.Consistency
import Dialogue.Proofs.Sight

/-! # The cache is not seen

    Beside the session stands one that compiles an asset anew whenever it is
    started (`Session.performAfresh`). It keeps no compiled conversations and so
    can never use old ones. The main statement, `seen_turns_eq_afresh`, says that
    every run of a new session looks as it does there: the same answers, the same
    stages, the same events, but for what the log keeps of the cache.

    What carries it is that each entry of the cache holds what its own source
    compiles to under its own variables (`Cache.Sound`). So whatever the cache
    gives out is what compiling would have given, however often an asset was
    edited and variables were changed in between.
-/

namespace Dialogue

variable {σ : Type}

/-- All that the log keeps of a fetch is of the cache. -/
theorem Cache.isCacheNotice_of_mem_fetch {cache : Cache} {asset : Asset} {globals : Variables}
    {e : Event} (h : e ∈ (cache.fetch asset globals).notices.map Event.logged) :
    e.isCacheNotice = true := by
  unfold fetch at h
  split at h
  · rw [List.mem_singleton.1 h]
    rfl
  · split at h
    · cases h
    · rw [List.mem_singleton.1 h]
      rfl

namespace Session

/-! ### Compiling anew -/

/-- Starts a conversation of an asset as `start` does, but compiles the asset
    anew. -/
def startAfresh (h : Host σ) (s : Session) (w : σ) (asset : Option Asset) (index : Nat) :
    Turn σ (Except SessionError Unit) :=
  match asset with
  | none => s.rest w (.error .noAsset)
  | some asset =>
    match compile s.stage.globals asset.source with
    | .error e => s.rest w (.error (.compile e))
    | .ok set =>
      let notice : Event := .logged (.compiled set.length asset.name)
      if index < set.length then s.follow (.ok ()) [notice] (s.enter h w set index)
      else ⟨.error (.outOfRange index set.length), s, w, [notice]⟩

/-- Follows a request as `perform` does, but compiles assets anew. -/
def performAfresh (h : Host σ) (s : Session) (w : σ) : Action → Turn σ Answer
  | .start asset index => (s.startAfresh h w asset index).map (.ofExcept fun _ => .done)
  | .interact i index =>
    (s.startAfresh h w i.dialogues[index]? 0).map (.ofExcept fun _ => .done)
  | a => s.perform h w a

/-- The turns of a run that compiles assets anew. -/
def turnsAfresh (h : Host σ) (s : Session) (w : σ) (actions : List Action) :
    List (Turn σ Answer) :=
  turnsBy (fun s w a => s.performAfresh h w a) s w actions

/-! ### Single requests -/

/-- The sessions differ in their caches at most. -/
structure LooksLike (s s' : Session) : Prop where
  stage : s.stage = s'.stage
  audience : s.audience = s'.audience

variable {h : Host σ} {s s' : Session} {w : σ}

/-- Nothing that the log keeps of the cache is seen. -/
theorem filter_notices_fetch (cache : Cache) (asset : Asset) (globals : Variables) :
    (((cache.fetch asset globals).notices.map Event.logged).filter fun e => !e.isCacheNotice) =
      [] := by
  apply List.filter_eq_nil_iff.2
  intro e he
  simp [Cache.isCacheNotice_of_mem_fetch he]

/-- A start looks like one that compiles anew. -/
theorem seen_start (hcache : s.cache.Sound) (hs : s.LooksLike s') (asset : Option Asset)
    (index : Nat) :
    (s.start h w asset index).seen = (s'.startAfresh h w asset index).seen := by
  obtain ⟨stage, audience, cache⟩ := s
  obtain ⟨stage', audience', cache'⟩ := s'
  obtain ⟨rfl, rfl⟩ := hs
  cases asset with
  | none => rfl
  | some asset =>
    obtain ⟨-, hresult⟩ := Cache.Sound.fetch hcache asset stage.globals
    have hnotices := filter_notices_fetch cache asset stage.globals
    rw [start, startAfresh, ← hresult]
    dsimp only
    cases (cache.fetch asset stage.globals).result with
    | error e => simp only [Turn.seen, rest, hnotices, Except.map, List.filter_nil]
    | ok set =>
      simp only [Except.map]
      split
      · -- The conversation is entered by the same stage and for the same listeners.
        simp only [Turn.seen, follow, List.filter_append, hnotices]
        rfl
      · simp only [Turn.seen, hnotices]
        rfl

/-- Requests other than to start an asset have nothing to do with the cache. -/
theorem seen_perform_of_looksLike (hs : s.LooksLike s') {a : Action}
    (hasset : ∀ asset index, a ≠ .start asset index) (hoffer : ∀ i index, a ≠ .interact i index) :
    (s.perform h w a).seen = (s'.perform h w a).seen := by
  obtain ⟨stage, audience, cache⟩ := s
  obtain ⟨stage', audience', cache'⟩ := s'
  obtain ⟨rfl, rfl⟩ := hs
  cases a with
  | start asset index => exact absurd rfl (hasset asset index)
  | interact i index => exact absurd rfl (hoffer i index)
  | jump name =>
    refine Turn.seen_map ?_
    dsimp only [jump]
    split
    · rfl
    · split <;> rfl
  | advance =>
    refine Turn.seen_map ?_
    dsimp only [advance]
    split
    · rfl
    · split
      · rfl
      · split <;> rfl
  | select index =>
    refine Turn.seen_map ?_
    dsimp only [select]
    split
    · rfl
    · split
      · rfl
      · split
        · rfl
        · split <;> rfl
  | stop => rfl
  | finishLine => rfl
  | changeVariables change => rfl
  | setView view => rfl
  | addPlugin => rfl
  | addObserver => rfl

/-- Every request looks as it does where assets are compiled anew. -/
theorem seen_perform (hcache : s.cache.Sound) (hs : s.LooksLike s') (a : Action) :
    (s.perform h w a).seen = (s'.performAfresh h w a).seen := by
  cases a with
  | start asset index => exact Turn.seen_map (seen_start hcache hs asset index)
  | interact i index => exact Turn.seen_map (seen_start hcache hs i.dialogues[index]? 0)
  | _ => exact seen_perform_of_looksLike hs (by simp) (by simp)

/-! ### Runs -/

/-- From a consistent session on, every run looks as it does where assets are
    compiled anew. -/
theorem seen_turns (hconsistent : s.Consistent) (hs : s.LooksLike s') (w : σ)
    (actions : List Action) :
    (s.turns h w actions).map Turn.seen = (s'.turnsAfresh h w actions).map Turn.seen := by
  -- The session beside has no use for its cache, so nothing is asked of that one.
  refine map_seen_turnsBy (R := fun s s' => s.Consistent ∧ s.LooksLike s') ?_
    ⟨hconsistent, hs⟩ w actions
  intro s s' w a hs
  have hseen : (s.perform h w a).seen = (s'.performAfresh h w a).seen :=
    seen_perform hs.1.cache hs.2 a
  exact ⟨hseen, (hs.1.perform h w a).1, congrArg Sight.stage hseen, congrArg Sight.audience hseen⟩

end Session

/-- Every run of a new session looks as it does where each start of an asset
    compiles it anew. Turn by turn, the answer, the stage, the listeners and the
    world are the same, and so are the events, but for what the log keeps of
    compiling and of using conversations again. -/
theorem seen_turns_eq_afresh (h : Host σ) (globals : Variables) (w : σ) (actions : List Action) :
    ((Session.new globals).turns h w actions).map Turn.seen =
      ((Session.new globals).turnsAfresh h w actions).map Turn.seen :=
  Session.seen_turns (Session.consistent_new globals) ⟨rfl, rfl⟩ w actions

end Dialogue
