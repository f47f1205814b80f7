import Mathlib.Data.List.Forall2
import Dialogue.Proofs.Sight

/-! # Hosts that answer alike

    Two hosts can keep worlds of different kinds and still give the same answers. A
    relation between the worlds says where they do. In related worlds every function
    produces the same under both hosts and the view answers the same, and the worlds
    behind are related again (`Host.Alike`).

    A session knows its host only by such answers. So the runs of one session under two
    hosts that answer alike are the same, turn by turn, but for the worlds, which stay
    related (`Host.Alike.turns`).
-/

namespace Dialogue

variable {σ τ : Type} {R : σ → τ → Prop}

/-- The functions are of one kind, and in related worlds they produce the same. -/
structure Function.Alike (R : σ → τ → Prop) (f : Function σ) (g : Function τ) : Prop where
  kind : f.kind = g.kind
  call : ∀ scene w v, R w v → (f.call scene w).1 = (g.call scene v).1 ∧
    R (f.call scene w).2 (g.call scene v).2

/-- The same names are registered, and in related worlds functions and views answer the
    same. -/
structure Host.Alike (R : σ → τ → Prop) (h : Host σ) (k : Host τ) : Prop where
  functions : ∀ name : Text, Option.Rel (Function.Alike R) h.functions[name]? k.functions[name]?
  reveal : ∀ view line w v, R w v → (h.reveal view line w).1 = (k.reveal view line v).1 ∧
    R (h.reveal view line w).2 (k.reveal view line v).2

/-- The lines read the same, with the same calls, and the worlds behind are related. -/
structure Spliced.Alike (R : σ → τ → Prop) (s : Spliced σ) (s' : Spliced τ) : Prop where
  text : s.text = s'.text
  called : s.called = s'.called
  missing : s.missing = s'.missing
  world : R s.world s'.world

/-- The outcomes are the same, but for the worlds, which are related. -/
structure Outcome.Alike (R : σ → τ → Prop) (o : Outcome σ) (o' : Outcome τ) : Prop where
  stage : o.stage = o'.stage
  world : R o.world o'.world
  events : o.events = o'.events

/-- The turns are the same, but for the worlds, which are related. -/
structure Turn.Alike {α : Type} (R : σ → τ → Prop) (t : Turn σ α) (t' : Turn τ α) : Prop where
  answer : t.answer = t'.answer
  session : t.session = t'.session
  world : R t.world t'.world
  events : t.events = t'.events

namespace Host.Alike

variable {h : Host σ} {k : Host τ} {w : σ} {v : τ}

/-! ### Displaying -/

/-- A name is registered with both hosts or with neither. -/
theorem registered (hk : h.Alike R k) (name : Text) :
    (h.functions[name]? = none ∧ k.functions[name]? = none) ∨
      ∃ f g, h.functions[name]? = some f ∧ k.functions[name]? = some g ∧ f.Alike R g := by
  have hrel := hk.functions name
  cases hf : h.functions[name]? with
  | none =>
    cases hg : k.functions[name]? with
    | none => exact .inl ⟨rfl, rfl⟩
    | some g =>
      rw [hf, hg] at hrel
      cases hrel
  | some f =>
    cases hg : k.functions[name]? with
    | none =>
      rw [hf, hg] at hrel
      cases hrel
    | some g =>
      rw [hf, hg] at hrel
      cases hrel with
      | some hsame => exact .inr ⟨f, g, rfl, rfl, hsame⟩

/-- Functions see the same. -/
theorem scene_eq (hk : h.Alike R k) (s : Stage) : h.functions.scene s = k.functions.scene s := by
  have hkinds : h.functions.map (fun _ f => f.kind) = k.functions.map fun _ f => f.kind := by
    apply Std.ExtTreeMap.ext_getElem?
    intro name
    rw [Std.ExtTreeMap.getElem?_map, Std.ExtTreeMap.getElem?_map]
    rcases hk.registered name with ⟨hf, hg⟩ | ⟨f, g, hf, hg, hsame⟩
    · rw [hf, hg]
      rfl
    · rw [hf, hg]
      exact congrArg some hsame.kind
  rw [Registry.scene, Registry.scene, hkinds]

theorem splice (hk : h.Alike R k) (scene : Scene) (consumed : Nat) (rest : Text)
    (is : List Invocation) (hw : R w v) :
    (h.functions.splice scene consumed rest is w).Alike R
      (k.functions.splice scene consumed rest is v) := by
  induction is generalizing consumed rest w v with
  | nil => exact ⟨rfl, rfl, rfl, hw⟩
  | cons i later ih =>
    rcases hk.registered i.function with ⟨hf, hg⟩ | ⟨f, g, hf, hg, hsame⟩
    · have hlater := ih (consumed + (rest.take (i.offset - consumed)).length)
        (rest.drop (i.offset - consumed)) hw
      simp only [Registry.splice, hf, hg]
      exact ⟨by rw [hlater.text], hlater.called, by rw [hlater.missing], hlater.world⟩
    · -- The rest is spliced in the worlds behind the call.
      obtain ⟨hresult, hworld⟩ := hsame.call scene w v hw
      have hlater := ih (consumed + (rest.take (i.offset - consumed)).length)
        (rest.drop (i.offset - consumed)) hworld
      simp only [Registry.splice, hf, hg]
      exact ⟨by rw [hresult, hlater.text], by rw [hlater.called], hlater.missing, hlater.world⟩

theorem present (hk : h.Alike R k) (view : Option Text) (line : DisplayedLine) (hw : R w v) :
    (h.present view line w).1 = (k.present view line v).1 ∧
      R (h.present view line w).2 (k.present view line v).2 := by
  cases view with
  | none => exact ⟨rfl, hw⟩
  | some view => exact hk.reveal view line w v hw

theorem displayLine (hk : h.Alike R k) (a : Audience) (s : Stage) (c : Conversation) (index : Nat)
    (l : Line) (hw : R w v) :
    (s.displayLine h a c index l w).Alike R (s.displayLine k a c index l v) := by
  have hscene := hk.scene_eq { s with busy := true }
  have hrun := hk.splice (k.functions.scene { s with busy := true }) 0 l.content.text
    l.content.ordered hw
  obtain ⟨hanswer, hworld⟩ := hk.present a.view
    ⟨l.speaker, (k.functions.run (k.functions.scene { s with busy := true }) l.content v).text,
      l.image⟩ hrun.world
  unfold Stage.displayLine
  dsimp only [Registry.run] at hanswer hworld ⊢
  rw [hscene, hrun.text, hrun.called, hrun.missing]
  exact ⟨by rw [hanswer], hworld, rfl⟩

theorem display (hk : h.Alike R k) (a : Audience) (s : Stage) (hw : R w v) :
    (s.display h a w).Alike R (s.display k a v) := by
  unfold Stage.display
  split
  · exact ⟨rfl, hw, rfl⟩
  · split
    · next c l hc hl => exact hk.displayLine a s c s.lineIndex l hw
    · exact ⟨rfl, hw, rfl⟩

/-! ### Requests -/

variable {s : Session}

theorem enter (hk : h.Alike R k) (set : List Conversation) (index : Nat) (hw : R w v) :
    (s.enter h w set index).Alike R (s.enter k v set index) := by
  have hshown := hk.display s.audience (s.stage.enter set index) hw
  exact ⟨hshown.stage, hshown.world, congrArg (_ ++ ·) hshown.events⟩

end Host.Alike

namespace Turn

variable {α β : Type}

theorem Alike.map {t : Turn σ α} {t' : Turn τ α} (ht : t.Alike R t') (f : α → β) :
    (t.map f).Alike R (t'.map f) :=
  ⟨congrArg f ht.answer, ht.session, ht.world, ht.events⟩

/-- A turn that has nothing to do with the host. -/
theorem alike_of_world (answer : α) (s : Session) (events : List Event) {w : σ} {v : τ}
    (hw : R w v) :
    (⟨answer, s, w, events⟩ : Turn σ α).Alike R ⟨answer, s, v, events⟩ :=
  ⟨rfl, rfl, hw, rfl⟩

theorem alike_follow (s : Session) (answer : α) (before : List Event) {o : Outcome σ}
    {o' : Outcome τ} (ho : o.Alike R o') :
    (s.follow answer before o).Alike R (s.follow answer before o') := by
  refine ⟨rfl, ?_, ho.world, congrArg (before ++ ·) ho.events⟩
  show ({ s with stage := o.stage } : Session) = { s with stage := o'.stage }
  rw [ho.stage]

end Turn

namespace Host.Alike

variable {h : Host σ} {k : Host τ} {w : σ} {v : τ} {s : Session}

theorem start (hk : h.Alike R k) (asset : Option Asset) (index : Nat) (hw : R w v) :
    (s.start h w asset index).Alike R (s.start k v asset index) := by
  cases asset with
  | none => exact Turn.alike_of_world _ s [] hw
  | some asset =>
    dsimp only [Session.start]
    split
    · exact Turn.alike_of_world _ _ _ hw
    · split
      · exact Turn.alike_follow _ _ _ (hk.enter _ index hw)
      · exact Turn.alike_of_world _ _ _ hw

theorem jump (hk : h.Alike R k) (name : Text) (hw : R w v) :
    (s.jump h w name).Alike R (s.jump k v name) := by
  unfold Session.jump
  split
  · exact Turn.alike_of_world _ s [] hw
  · split
    · exact Turn.alike_of_world _ s [] hw
    · exact Turn.alike_follow _ _ _ (hk.enter _ _ hw)

theorem advance (hk : h.Alike R k) (hw : R w v) :
    (s.advance h w).Alike R (s.advance k v) := by
  unfold Session.advance
  split
  · exact Turn.alike_of_world _ s [] hw
  · split
    · exact Turn.alike_of_world _ _ _ hw
    · dsimp only
      split
      · exact Turn.alike_follow _ _ _ (hk.display _ _ hw)
      · exact Turn.alike_follow _ _ _ ⟨rfl, hw, rfl⟩

theorem select (hk : h.Alike R k) (index : Nat) (hw : R w v) :
    (s.select h w index).Alike R (s.select k v index) := by
  unfold Session.select
  split
  · exact Turn.alike_of_world _ s [] hw
  · split
    · exact Turn.alike_of_world _ s [] hw
    · split
      · exact Turn.alike_of_world _ _ _ hw
      · split
        · exact Turn.alike_follow _ _ _ (hk.enter _ _ hw)
        · exact Turn.alike_of_world _ _ _ hw

/-- Every request comes to the same under both hosts. -/
theorem perform (hk : h.Alike R k) (a : Action) (hw : R w v) :
    (s.perform h w a).Alike R (s.perform k v a) := by
  cases a with
  | start asset index => exact (hk.start asset index hw).map _
  | interact i index => exact (hk.start i.dialogues[index]? 0 hw).map _
  | jump name => exact (hk.jump name hw).map _
  | advance => exact (hk.advance hw).map _
  | select index => exact (hk.select index hw).map _
  -- All others do without the host.
  | stop => exact Turn.alike_of_world _ _ _ hw
  | finishLine => exact Turn.alike_of_world _ _ _ hw
  | changeVariables change => exact Turn.alike_of_world _ _ _ hw
  | setView view => exact Turn.alike_of_world _ _ _ hw
  | addPlugin => exact Turn.alike_of_world _ _ _ hw
  | addObserver => exact Turn.alike_of_world _ _ _ hw

/-- So does every run, turn by turn. -/
theorem turns (hk : h.Alike R k) (actions : List Action) (hw : R w v) :
    List.Forall₂ (Turn.Alike R) (s.turns h w actions) (s.turns k v actions) := by
  induction actions generalizing s w v with
  | nil => exact .nil
  | cons a rest ih =>
    have hfirst := hk.perform (s := s) a hw
    have hlater := ih (s := (s.perform h w a).session) hfirst.world
    refine .cons hfirst ?_
    rw [hfirst.session] at hlater ⊢
    exact hlater

end Host.Alike

end Dialogue
