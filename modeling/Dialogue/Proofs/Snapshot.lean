import Dialogue.Proofs.Caching

/-! # Variables that change while a conversation is on

    A conversation keeps the variables that it was compiled with. The host may change
    the variables of the session at any time, but until an asset is started again
    nobody can tell, except a function that looks them up itself. Where no function
    does (`Host.IgnoresVariables`), a run goes as it would have gone without the
    changes: they can be taken out of it, and every other turn stays as it was
    (`changes_unseen_until_start`).

    What is compared is a turn without the variables (`Turn.bare`). Two stages that
    differ in their variables only are one stage without them, so it is enough that
    every request comes to the same, but for the variables, on a stage without any
    (`Session.bare_perform`).

    The next start compiles under the variables as they are by then, that is under
    the old ones with all changes made to them in their order (`Session.globals_run`).
-/

namespace Dialogue

variable {σ : Type}

/-! ### Without the variables -/

/-- The stage without its variables. -/
def Stage.bare (s : Stage) : Stage := { s with globals := ∅ }

/-- What a function sees, but for the variables. -/
def Scene.bare (scene : Scene) : Scene := { scene with stage := scene.stage.bare }

/-- The event, where a call shows all but the variables. -/
def Event.bare : Event → Event
  | .called function scene => .called function scene.bare
  | e => e

/-- The session without its variables. -/
def Session.bare (s : Session) : Session := { s with stage := s.stage.bare }

/-- The outcome without the variables. -/
def Outcome.bare (o : Outcome σ) : Outcome σ := ⟨o.stage.bare, o.world, o.events.map Event.bare⟩

/-- The turn without the variables. -/
def Turn.bare {α : Type} (t : Turn σ α) : Turn σ α :=
  ⟨t.answer, t.session.bare, t.world, t.events.map Event.bare⟩

/-- No function reads the variables. Each does in every scene what it would do in that
    scene without any. -/
def Host.IgnoresVariables (h : Host σ) : Prop :=
  ∀ (name : Text) (f : Function σ), h.functions[name]? = some f →
    ∀ scene w, f.call scene.bare w = f.call scene w

theorem Outcome.bare_after {o o' : Outcome σ} (ho : o.bare = o'.bare) (before : List Event) :
    (o.after before).bare = (o'.after before).bare := by
  obtain ⟨hstage, hworld, hevents⟩ := Outcome.mk.inj ho
  simp only [Outcome.bare, Outcome.after, List.map_append, hstage, hworld, hevents]

theorem Turn.bare_map {α β : Type} (f : α → β) {t t' : Turn σ α} (ht : t.bare = t'.bare) :
    (t.map f).bare = (t'.map f).bare :=
  congrArg (Turn.map f) ht

/-- Turns that follow the same outcome, but for the variables. -/
theorem Turn.bare_follow {α : Type} (s : Session) (answer : α) (before : List Event)
    {o o' : Outcome σ} (ho : o.bare = o'.bare) :
    (s.bare.follow answer before o).bare = (s.follow answer before o').bare := by
  obtain ⟨hstage, hworld, hevents⟩ := Outcome.mk.inj ho
  simp only [Turn.bare, Session.follow, Session.bare, List.map_append, hstage, hworld, hevents]

/-! ### Displaying -/

section

variable {h : Host σ} (hh : h.IgnoresVariables)

include hh

theorem Host.IgnoresVariables.splice (scene : Scene) (consumed : Nat) (rest : Text)
    (is : List Invocation) (w : σ) :
    h.functions.splice scene.bare consumed rest is w =
      h.functions.splice scene consumed rest is w := by
  induction is generalizing consumed rest w with
  | nil => rfl
  | cons i later ih =>
    simp only [Registry.splice, ih]
    cases hf : h.functions[i.function]? with
    | none => rfl
    | some f =>
      dsimp only
      rw [hh i.function f hf scene w]

theorem Stage.bare_displayLine (a : Audience) (s : Stage) (c : Conversation) (index : Nat)
    (l : Line) (w : σ) :
    (s.bare.displayLine h a c index l w).bare = (s.displayLine h a c index l w).bare := by
  have hrun := hh.splice (h.functions.scene { s with busy := true }) 0 l.content.text
    l.content.ordered w
  have hscene : h.functions.scene { s.bare with busy := true } =
      (h.functions.scene { s with busy := true }).bare := rfl
  unfold Stage.displayLine
  simp only [Registry.run, hscene, hrun, Outcome.bare, List.map_append, List.map_map]
  rfl

theorem Stage.bare_display (a : Audience) (s : Stage) (w : σ) :
    (s.bare.display h a w).bare = (s.display h a w).bare := by
  have hc : s.bare.conversation? = s.conversation? := rfl
  have hl : s.bare.line? = s.line? := rfl
  have hcurrent : s.bare.current = s.current := rfl
  unfold Stage.display
  rw [hc, hl, hcurrent]
  split
  · rfl
  · split
    · next c l hc hl => exact bare_displayLine hh a s c s.lineIndex l w
    · rfl

/-! ### Requests -/

namespace Session

theorem bare_enter (s : Session) (w : σ) (set : List Conversation) (index : Nat) :
    (s.bare.enter h w set index).bare = (s.enter h w set index).bare :=
  -- What is told on the way does not depend on the variables.
  Outcome.bare_after (Stage.bare_display hh s.audience (s.stage.enter set index) w)
    (s.audience.stop s.stage ++ s.audience.announce (s.stage.enter set index))

theorem bare_jump (s : Session) (w : σ) (name : Text) :
    (s.bare.jump h w name).bare = (s.jump h w name).bare := by
  have hset : s.bare.stage.conversations = s.stage.conversations := rfl
  unfold jump
  rw [hset]
  split
  · rfl
  · split
    · rfl
    · exact Turn.bare_follow s _ _ (bare_enter hh s w _ _)

theorem bare_advance (s : Session) (w : σ) :
    (s.bare.advance h w).bare = (s.advance h w).bare := by
  have hbusy : s.bare.stage.busy = s.stage.busy := rfl
  have hpending : s.bare.stage.pending = s.stage.pending := rfl
  have hc : s.bare.stage.conversation? = s.stage.conversation? := rfl
  have hline : s.bare.stage.clear.lineIndex = s.stage.clear.lineIndex := rfl
  unfold advance
  rw [hbusy, hpending, hc]
  split
  · rfl
  · split
    · rfl
    · dsimp only
      rw [hline]
      split
      · exact Turn.bare_follow s _ _ (Stage.bare_display hh s.audience s.stage.next w)
      · rfl

theorem bare_select (s : Session) (w : σ) (index : Nat) :
    (s.bare.select h w index).bare = (s.select h w index).bare := by
  have hpending : s.bare.stage.pending = s.stage.pending := rfl
  have hset : s.bare.stage.conversations = s.stage.conversations := rfl
  unfold select
  rw [hpending, hset]
  split
  · rfl
  · split
    · rfl
    · split
      · rfl
      · split
        · exact Turn.bare_follow s _ _ (bare_enter hh s w _ _)
        · rfl

end Session

end

/-- Whether the request starts an asset. -/
def Action.startsAsset : Action → Bool
  | .start .. | .interact .. => true
  | _ => false

/-- Whether the request changes the variables. -/
def Action.changesVariables : Action → Bool
  | .changeVariables _ => true
  | _ => false

/-- The variables behind a request that was made under these. -/
def Action.variablesAfter (a : Action) (globals : Variables) : Variables :=
  match a with
  | .changeVariables change => change globals
  | _ => globals

theorem Stage.globals_display (h : Host σ) (a : Audience) (s : Stage) (w : σ) :
    (s.display h a w).stage.globals = s.globals := by
  unfold Stage.display
  split
  · rfl
  · split <;> rfl

namespace Session

variable {h : Host σ}

/-- Without a start, a request comes to the same with and without the variables. -/
theorem bare_perform (hh : h.IgnoresVariables) (s : Session) (w : σ) {a : Action}
    (ha : a.startsAsset = false) : (s.bare.perform h w a).bare = (s.perform h w a).bare := by
  cases a with
  | start asset index => cases ha
  | interact i index => cases ha
  | jump name => exact Turn.bare_map _ (bare_jump hh s w name)
  | advance => exact Turn.bare_map _ (bare_advance hh s w)
  | select index => exact Turn.bare_map _ (bare_select hh s w index)
  -- All others do without the host.
  | stop => rfl
  | finishLine => rfl
  | changeVariables change => rfl
  | setView view => rfl
  | addPlugin => rfl
  | addObserver => rfl

/-! ### What becomes of the variables -/

theorem globals_start (s : Session) (w : σ) (asset : Option Asset) (index : Nat) :
    (s.start h w asset index).session.stage.globals = s.stage.globals := by
  cases asset with
  | none => rfl
  | some asset =>
    dsimp only [start]
    split
    · rfl
    · split
      · exact Stage.globals_display h s.audience _ w
      · rfl

theorem globals_jump (s : Session) (w : σ) (name : Text) :
    (s.jump h w name).session.stage.globals = s.stage.globals := by
  unfold jump
  split
  · rfl
  · split
    · rfl
    · exact Stage.globals_display h s.audience _ w

theorem globals_advance (s : Session) (w : σ) :
    (s.advance h w).session.stage.globals = s.stage.globals := by
  unfold advance
  split
  · rfl
  · split
    · rfl
    · dsimp only
      split
      · exact Stage.globals_display h s.audience s.stage.next w
      · rfl

theorem globals_select (s : Session) (w : σ) (index : Nat) :
    (s.select h w index).session.stage.globals = s.stage.globals := by
  unfold select
  split
  · rfl
  · split
    · rfl
    · split
      · rfl
      · split
        · exact Stage.globals_display h s.audience _ w
        · rfl

/-- No request changes the variables but the one for it. -/
theorem globals_perform (s : Session) (w : σ) (a : Action) :
    (s.perform h w a).session.stage.globals = a.variablesAfter s.stage.globals := by
  cases a with
  | start asset index => exact globals_start s w asset index
  | interact i index => exact globals_start s w i.dialogues[index]? 0
  | jump name => exact globals_jump s w name
  | advance => exact globals_advance s w
  | select index => exact globals_select s w index
  | stop => rfl
  | finishLine => rfl
  | changeVariables change => rfl
  | setView view => rfl
  | addPlugin => rfl
  | addObserver => rfl

/-! ### Runs -/

/-- A run leaves the variables with all changes that were asked for, in their order. -/
theorem globals_run (s : Session) (w : σ) (actions : List Action) :
    (s.run h w actions).session.stage.globals =
      actions.foldl (fun globals a => a.variablesAfter globals) s.stage.globals := by
  induction actions generalizing s w with
  | nil => rfl
  | cons a rest ih =>
    rw [List.foldl_cons, ← globals_perform (h := h) s w a]
    exact ih (s.perform h w a).session (s.perform h w a).world

/-- The turns of a run, but for those that change the variables. -/
def otherTurns (h : Host σ) (s : Session) (w : σ) (actions : List Action) :
    List (Turn σ Answer) :=
  ((actions.zip (s.turns h w actions)).filter fun p => !p.1.changesVariables).map Prod.snd

theorem otherTurns_cons (s : Session) (w : σ) (a : Action) (rest : List Action) :
    s.otherTurns h w (a :: rest) =
      let t := s.perform h w a
      let later := t.session.otherTurns h t.world rest
      if a.changesVariables then later else t :: later := by
  have hzip : (a :: rest).zip (s.turns h w (a :: rest)) =
      (a, s.perform h w a) ::
        rest.zip ((s.perform h w a).session.turns h (s.perform h w a).world rest) := rfl
  rw [otherTurns, hzip, List.filter_cons]
  cases a.changesVariables <;> rfl

/-- A change of the variables does nothing else. -/
theorem bare_perform_of_changesVariables (s : Session) (w : σ) {a : Action}
    (ha : a.changesVariables = true) :
    (s.perform h w a).session.bare = s.bare ∧ (s.perform h w a).world = w := by
  cases a with
  | changeVariables change => exact ⟨rfl, rfl⟩
  | _ => cases ha

/-- Changes of the variables can be taken out of a run without a start. -/
theorem map_bare_otherTurns (hh : h.IgnoresVariables) {s s' : Session} (hs : s.bare = s'.bare)
    (w : σ) {actions : List Action} (hactions : ∀ a ∈ actions, a.startsAsset = false) :
    (s.otherTurns h w actions).map Turn.bare =
      (s'.turns h w (actions.filter fun a => !a.changesVariables)).map Turn.bare := by
  -- Along both runs the sessions are the same without the variables.
  induction actions generalizing s s' w with
  | nil => rfl
  | cons a rest ih =>
    have hrest : ∀ b ∈ rest, b.startsAsset = false := fun b hb =>
      hactions b (List.mem_cons_of_mem a hb)
    rw [otherTurns_cons, List.filter_cons]
    cases ha : a.changesVariables with
    | true =>
      obtain ⟨hbehind, hworld⟩ := bare_perform_of_changesVariables (h := h) s w ha
      dsimp only
      rw [hworld]
      exact ih (hbehind.trans hs) w hrest
    | false =>
      have hstarts := hactions a List.mem_cons_self
      have hstep : (s.perform h w a).bare = (s'.perform h w a).bare := by
        rw [← bare_perform hh s w hstarts, ← bare_perform hh s' w hstarts, hs]
      obtain ⟨-, hbehind, hworld, -⟩ := Turn.mk.inj hstep
      have hlater := ih hbehind (s.perform h w a).world hrest
      show Turn.bare _ :: _ = Turn.bare _ :: List.map Turn.bare (turns h _ _ _)
      rw [hstep, hlater, hworld]

end Session

/-- Take a session with whatever past, and a host whose functions do not read the
    variables. While no asset is started, changes of the variables do not show: all other
    turns are, but for the variables, those of the run without the changes. The next start
    goes by the variables as they are by then, which are the ones before with all changes
    made to them, and whatever the cache holds, from that start on the session looks like
    one that compiles assets anew. -/
theorem changes_unseen_until_start {h : Host σ} (hh : h.IgnoresVariables) (globals : Variables)
    (w : σ) (past during : List Action) (hduring : ∀ a ∈ during, a.startsAsset = false) :
    let now := (Session.new globals).run h w past
    let last := now.session.run h now.world during
    (now.session.otherTurns h now.world during).map Turn.bare =
      (now.session.turns h now.world (during.filter fun a => !a.changesVariables)).map
        Turn.bare ∧
    last.session.stage.globals =
      during.foldl (fun globals a => a.variablesAfter globals) now.session.stage.globals ∧
    ∀ cache asset index later,
      (last.session.turns h last.world (.start asset index :: later)).map Turn.seen =
        (({ last.session with cache } : Session).turnsAfresh h last.world
          (.start asset index :: later)).map Turn.seen := by
  intro now last
  have hnow : now.session.Consistent := ((Session.consistent_new globals).run h w past).1
  have hlast : last.session.Consistent := (hnow.run h now.world during).1
  refine ⟨Session.map_bare_otherTurns hh rfl now.world hduring,
    Session.globals_run now.session now.world during, ?_⟩
  intro cache asset index later
  have hlooks : last.session.LooksLike { last.session with cache } := ⟨rfl, rfl⟩
  exact Session.seen_turns hlast hlooks last.world (.start asset index :: later)

/-! An inn whose guest is renamed, struck off the list and replaced, all while the first
    welcome is on. -/

/-- The script of the inn. -/
def innScript : Asset where
  name := "Inn".toList
  source := String.toList
    "\x7b\x7bConversationName(Inn)\x7d\x7d
Welcome, $Guest\x7b\x7bBell\x7d\x7d
Still here, $Guest\x7b\x7bBell\x7d\x7d
- Once more -> Inn"

/-- The variables while this guest is there. -/
def guestList (guest : String) : Variables := .ofPairs [("Guest".toList, guest.toList)]

/-- A host with a bell, which reads the number of the line. The world is how often the
    bell was rung. -/
def bellHost : Host Nat where
  functions := (∅ : Registry Nat).insert "Bell".toList
    (.text fun scene n => (List.replicate (scene.stage.lineIndex + n) '!', n + 1))
  reveal := fun _ _ n => (.complete, n)

theorem ignoresVariables_bellHost : bellHost.IgnoresVariables := by
  intro name f hf scene w
  simp only [bellHost, Std.ExtTreeMap.getElem?_insert, Std.ExtTreeMap.getElem?_empty] at hf
  split at hf
  · cases hf
    rfl
  · cases hf

/-- The name of the guest is out of the variables when the welcome comes again, and yet
    it is Ann who is welcomed. The next start welcomes Cleo. -/
theorem changes_unseen_inn :
    let now := (Session.new (guestList "Ann")).run bellHost 1 [.start (some innScript) 0]
    let during : List Action :=
      [.changeVariables fun _ => guestList "Bob", .advance,
        .changeVariables fun globals => globals.erase "Guest".toList, .select 0,
        .changeVariables fun _ => guestList "Cleo"]
    let last := now.session.run bellHost now.world during
    let t := last.session.perform bellHost last.world (.start (some innScript) 0)
    (∀ a ∈ during, a.startsAsset = false) ∧
    last.answer = [.done, .advanced true, .done, .selected (.entered "Inn".toList), .done] ∧
    last.session.stage.shown.map DisplayedLine.text = some "Welcome, Ann!!!".toList ∧
    t.session.stage.shown.map DisplayedLine.text = some "Welcome, Cleo!!!!".toList ∧
    (now.session.otherTurns bellHost now.world during).map Turn.bare =
      (now.session.turns bellHost now.world [.advance, .select 0]).map Turn.bare ∧
    last.session.stage.globals = guestList "Cleo" ∧
    ∀ cache asset index later,
      (last.session.turns bellHost last.world (.start asset index :: later)).map Turn.seen =
        (({ last.session with cache } : Session).turnsAfresh bellHost last.world
          (.start asset index :: later)).map Turn.seen := by
  intro now during last t
  have hduring : ∀ a ∈ during, a.startsAsset = false := by decide
  have hanswer : last.answer =
      [.done, .advanced true, .done, .selected (.entered "Inn".toList), .done] := by
    decide +kernel
  have hann : last.session.stage.shown.map DisplayedLine.text =
      some "Welcome, Ann!!!".toList := by decide +kernel
  have hcleo : t.session.stage.shown.map DisplayedLine.text =
      some "Welcome, Cleo!!!!".toList := by decide +kernel
  exact ⟨hduring, hanswer, hann, hcleo,
    changes_unseen_until_start ignoresVariables_bellHost (guestList "Ann") 1
      [.start (some innScript) 0] during hduring⟩

end Dialogue
