import Dialogue.Proofs.Arrival
import Dialogue.Proofs.Futility

/-! # Choosing is jumping

    There are two ways to a conversation of the present set: to select a choice that leads
    there, and to jump to it by its name. They have different guards. A jump asks whether
    there are conversations at all, and a selection whether there are choices and whether
    the target is reserved. Still they agree in every session. To select a choice comes to
    what a jump to its target comes to, but for a note in the log, and a choice with the
    reserved target leads nowhere even where a conversation has that name.

    Two facts carry it. Choices are pending only while a conversation is active, so that
    the set is not empty. And the compiler gives no two conversations one name, so that a
    name leads to the one conversation that has it.

    Main result:
    - `choosing_agrees_with_jumping`: what a selection answers can be told from the jump,
      and where it enters a conversation both come to the same
-/

namespace Dialogue

variable {σ : Type}

/-! ### Names -/

namespace IsCompiled

variable {set : List Conversation}

/-- The conversations of a compiled set have names of their own. -/
theorem names_nodup (hset : IsCompiled set) : (set.map Conversation.name).Nodup := by
  obtain ⟨globals, source, hcompile⟩ := hset
  obtain ⟨ts, -, -, hcs, hnodup⟩ := compileItems_eq_ok_iff.1 hcompile
  have hnames : (Block.ofTokens ts).map Block.name = set.map Conversation.name :=
    map_eq_map_of_forall₂ hcs fun b c hbc => hbc.yields.name.symm
  rwa [← hnames]

/-- No two of them have one name. -/
theorem eq_of_name_eq (hset : IsCompiled set) {i j : Nat} {c d : Conversation}
    (hc : set[i]? = some c) (hd : set[j]? = some d) (hname : d.name = c.name) : j = i := by
  have hith : (set.map Conversation.name)[i]? = some c.name := by
    rw [List.getElem?_map, hc, Option.map_some]
  have hjth : (set.map Conversation.name)[j]? = some c.name := by
    rw [List.getElem?_map, hd, Option.map_some, hname]
  have hj : j < (set.map Conversation.name).length := (List.getElem?_eq_some_iff.1 hjth).1
  exact (List.getElem?_inj hj hset.names_nodup).1 (hjth.trans hith.symm)

end IsCompiled

/-! ### The two ways -/

namespace Session

/-- A selection of this pending choice and a jump to its target agree, in this world. -/
structure ChoosesByJump (h : Host σ) (s : Session) (w : σ) (index : Nat) (choice : Choice) :
    Prop where
  /-- The reserved target leads nowhere, and any other where a jump leads. -/
  answer : (s.perform h w (.select index)).answer = .selected (
    if choice.target = reservedTarget then .reserved
    else if (s.perform h w (.jump choice.target)).answer = .done then .entered choice.target
    else .unresolved)
  /-- A jump to the target is only refused if no conversation has that name. -/
  refused : ∀ error, (s.perform h w (.jump choice.target)).answer = .refused error →
    error = .notFound choice.target ∧ ∀ c ∈ s.stage.conversations, c.name ≠ choice.target
  /-- If a conversation is entered, then as by the jump, and the log notes the choice. It
      is the one conversation with the name of the target, at its first line. -/
  entered : (s.perform h w (.select index)).answer = .selected (.entered choice.target) →
    let t := s.perform h w (.select index)
    let u := s.perform h w (.jump choice.target)
    t.session = u.session ∧ t.world = u.world ∧
      t.events = .logged (.selected choice.label) :: u.events ∧
      ∃ i c l, t.session.stage.IsAt ⟨s.stage.conversations, i, 0⟩ c l ∧ c.name = choice.target ∧
        ∀ j d, s.stage.conversations[j]? = some d → d.name = choice.target → j = i

variable {h : Host σ} {s : Session} {w : σ} {index i : Nat} {choice : Choice}

/-- A jump in a set with conversations goes by the name alone. -/
theorem perform_jump_eq (hset : s.stage.conversations ≠ []) (name : Text) :
    s.perform h w (.jump name) =
      match Conversation.index? s.stage.conversations name with
      | none => s.rest w (.refused (.notFound name))
      | some i => s.follow .done [] (s.enter h w s.stage.conversations i) := by
  have hfull : ¬ s.stage.conversations.isEmpty = true := by rwa [List.isEmpty_iff]
  rw [perform, jump, if_neg hfull]
  cases Conversation.index? s.stage.conversations name with
  | none => rfl
  | some i => rfl

/-- A number behind the last choice is refused. -/
theorem perform_select_of_le (hpending : s.stage.pending ≠ [])
    (hindex : s.stage.pending.length ≤ index) :
    s.perform h w (.select index) =
      s.rest w (.refused (.invalidChoice index s.stage.pending.length)) := by
  have hfull : ¬ s.stage.pending.isEmpty = true := by rwa [List.isEmpty_iff]
  rw [perform, select, if_neg hfull, List.getElem?_eq_none hindex]
  rfl

/-- A pending choice goes by the name of its target, unless that is the reserved one. -/
theorem perform_select_eq (hchoice : s.stage.pending[index]? = some choice) :
    s.perform h w (.select index) =
      if choice.target = reservedTarget then
        ⟨.selected .reserved, s, w, s.audience.report .reservedChoice⟩
      else
        match Conversation.index? s.stage.conversations choice.target with
        | none => ⟨.selected .unresolved, s, w, s.stage.faults ++
            s.audience.report (.unresolvedChoice choice.target choice.label
              ((s.stage.conversation?.map Conversation.name).getD []))⟩
        | some i => s.follow (.selected (.entered choice.target))
            [.logged (.selected choice.label)] (s.enter h w s.stage.conversations i) := by
  have hpending : ¬ s.stage.pending.isEmpty = true := by
    rw [List.isEmpty_iff]
    exact List.ne_nil_of_mem (List.mem_of_getElem? hchoice)
  have hkept : choice.isReserved = true ↔ choice.target = reservedTarget := beq_iff_eq
  rw [perform, select, if_neg hpending, hchoice]
  dsimp only
  by_cases hreserved : choice.target = reservedTarget
  · rw [if_pos hreserved, if_pos (hkept.2 hreserved)]
    rfl
  · rw [if_neg hreserved, if_neg (mt hkept.1 hreserved)]
    cases Conversation.index? s.stage.conversations choice.target with
    | none => rfl
    | some i => rfl

/-- Choices are pending only while there are conversations. -/
theorem Consistent.conversations_ne_nil (hs : s.Consistent) (hpending : s.stage.pending ≠ []) :
    s.stage.conversations ≠ [] := by
  obtain ⟨c, hc⟩ := hs.exists_conversation? hpending
  obtain ⟨i, -, hi⟩ := Stage.conversation?_eq_some_iff.1 hc
  exact List.ne_nil_of_mem (List.mem_of_getElem? hi)

/-- A conversation that is found by its name is entered at its first line, and no other
    has the name. -/
theorem Consistent.isAt_enter (hs : s.Consistent) {name : Text}
    (hname : Conversation.index? s.stage.conversations name = some i) :
    ∃ c l, (s.enter h w s.stage.conversations i).stage.IsAt ⟨s.stage.conversations, i, 0⟩ c l ∧
      c.name = name ∧ ∀ j d, s.stage.conversations[j]? = some d → d.name = name → j = i := by
  obtain ⟨c, hi, hnamed⟩ := Conversation.index?_eq_some hname
  obtain ⟨hlt, rfl⟩ := List.getElem?_eq_some_iff.1 hi
  have hset : IsCompiled s.stage.conversations := hs.stage.isCompiled (.inl rfl) hlt
  obtain ⟨hc, l, hl⟩ := s.stage.enter_line? hset hlt
  refine ⟨s.stage.conversations[i], l, ?_, hnamed, ?_⟩
  · show (Stage.display h s.audience _ w).stage.IsAt _ _ _
    rw [Stage.display_eq_displayLine hc hl]
    exact ⟨rfl, rfl, rfl, hc, hl⟩
  · intro j d hd hsame
    exact hset.eq_of_name_eq hi hd (hsame.trans hnamed.symm)

/-- Where choices are pending, a jump is only refused for its name. -/
theorem notFound_of_perform_jump (hset : s.stage.conversations ≠ []) {name : Text}
    {error : SessionError} (herror : (s.perform h w (.jump name)).answer = .refused error) :
    error = .notFound name ∧ ∀ c ∈ s.stage.conversations, c.name ≠ name := by
  rw [perform_jump_eq hset] at herror
  split at herror
  · next hnone =>
    cases herror
    exact ⟨rfl, Conversation.index?_eq_none_iff.1 hnone⟩
  · cases herror

/-- Each pending choice is selected as one jumps to its target. -/
theorem Consistent.choosesByJump (hs : s.Consistent)
    (hchoice : s.stage.pending[index]? = some choice) : s.ChoosesByJump h w index choice := by
  have hpending : s.stage.pending ≠ [] := List.ne_nil_of_mem (List.mem_of_getElem? hchoice)
  have hset : s.stage.conversations ≠ [] := hs.conversations_ne_nil hpending
  have hrefused : ∀ error, (s.perform h w (.jump choice.target)).answer = .refused error →
      error = .notFound choice.target ∧ ∀ c ∈ s.stage.conversations, c.name ≠ choice.target :=
    fun _ herror => notFound_of_perform_jump hset herror
  have hselect := perform_select_eq (h := h) (w := w) hchoice
  by_cases hreserved : choice.target = reservedTarget
  · rw [if_pos hreserved] at hselect
    refine ⟨?_, hrefused, ?_⟩
    · rw [hselect, if_pos hreserved]
    · intro hentered
      rw [hselect] at hentered
      cases hentered
  · -- Both look for the same name in the same set.
    rw [if_neg hreserved] at hselect
    have hjump := perform_jump_eq (h := h) (w := w) hset choice.target
    cases hname : Conversation.index? s.stage.conversations choice.target with
    | none =>
      rw [hname] at hselect hjump
      refine ⟨?_, hrefused, ?_⟩
      · rw [hselect, hjump, if_neg hreserved]
        rfl
      · intro hentered
        rw [hselect] at hentered
        cases hentered
    | some i =>
      obtain ⟨c, l, hat⟩ := hs.isAt_enter (h := h) (w := w) hname
      rw [hname] at hselect hjump
      refine ⟨?_, hrefused, ?_⟩
      · rw [hselect, hjump, if_neg hreserved]
        rfl
      · intro _
        rw [hselect, hjump]
        exact ⟨rfl, rfl, rfl, i, c, l, hat⟩

end Session

/-- Whatever a session has been through, to select one of its pending choices comes to what
    a jump to the target comes to. The reserved target leads nowhere, whether or not a
    conversation has that name. Any other choice enters a conversation just where the jump
    would, and then the session, the world and all that is heard are those of the jump, but
    for a note in the log. Choices go by their place: those with different targets enter
    different conversations, be their labels the same. -/
theorem choosing_agrees_with_jumping (h : Host σ) (globals : Variables) (w : σ)
    (past : List Action) (now : σ) :
    let s := ((Session.new globals).run h w past).session
    (∀ index choice, s.stage.pending[index]? = some choice →
      s.ChoosesByJump h now index choice) ∧
    ∀ i j (first second : Choice), s.stage.pending[i]? = some first →
      s.stage.pending[j]? = some second → first.target ≠ second.target →
      let t := s.perform h now (.select i)
      let u := s.perform h now (.select j)
      t.answer = .selected (.entered first.target) →
        u.answer = .selected (.entered second.target) →
        ∃ c d, t.session.stage.conversation? = some c ∧ u.session.stage.conversation? = some d ∧
          c.name = first.target ∧ d.name = second.target ∧ c ≠ d := by
  intro s
  have hs : s.Consistent := ((Session.consistent_new globals).run h w past).1
  have hchooses : ∀ index choice, s.stage.pending[index]? = some choice →
      s.ChoosesByJump h now index choice := fun _ _ hchoice => hs.choosesByJump hchoice
  refine ⟨hchooses, ?_⟩
  intro i j first second hfirst hsecond htargets t u ht hu
  obtain ⟨-, -, -, p, c, l, hatc, hc, -⟩ := (hchooses i first hfirst).entered ht
  obtain ⟨-, -, -, q, d, m, hatd, hd, -⟩ := (hchooses j second hsecond).entered hu
  refine ⟨c, d, hatc.conversation, hatd.conversation, hc, hd, ?_⟩
  rintro rfl
  exact htargets (hc.symm.trans hd)

/-! A fork where all ways have the same label. One leads back to the fork, one to a mill, one
    has the reserved target, which is also the name of a conversation, and one the name of
    none. -/

/-- The script of the fork. -/
def forkScript : Asset where
  name := []
  source := String.toList
    "\x7b\x7bConversationName(F)\x7d\x7d
?
- Left -> F
- Left -> M
- Left -> >>
- Left -> N
\x7b\x7bConversationName(>>)\x7d\x7d
?
\x7b\x7bConversationName(M)\x7d\x7d
?"

/-- The view is still bringing out the question when a way is chosen. -/
theorem choosing_forkScript :
    let s := ((Session.new ∅).run slowHost ()
      [.setView (some []), .start (some forkScript) 0]).session
    let way : Text → Choice := fun target => ⟨"Left".toList, target⟩
    let back := s.perform slowHost () (.select 0)
    let on := s.perform slowHost () (.select 1)
    s.stage.busy = true ∧
    s.stage.pending = [way ['F'], way ['M'], way reservedTarget, way ['N']] ∧
    (Conversation.index? s.stage.conversations reservedTarget).isSome = true ∧
    ([0, 1, 2, 3].map fun i => (s.perform slowHost () (.select i)).answer) =
      [.selected (.entered ['F']), .selected (.entered ['M']), .selected .reserved,
        .selected .unresolved] ∧
    back.session = (s.perform slowHost () (.jump ['F'])).session ∧
    ∃ c d, back.session.stage.conversation? = some c ∧ on.session.stage.conversation? = some d ∧
      c.name = ['F'] ∧ d.name = ['M'] ∧ c ≠ d := by
  intro s way back on
  have hruns : s.stage.busy = true ∧
      s.stage.pending = [way ['F'], way ['M'], way reservedTarget, way ['N']] ∧
      (Conversation.index? s.stage.conversations reservedTarget).isSome = true ∧
      ([0, 1, 2, 3].map fun i => (s.perform slowHost () (.select i)).answer) =
        [.selected (.entered ['F']), .selected (.entered ['M']), .selected .reserved,
          .selected .unresolved] := by decide +kernel
  obtain ⟨hbusy, hpending, hnamed, hanswers⟩ := hruns
  have hback : back.answer = .selected (.entered ['F']) := (List.cons.inj hanswers).1
  have hon : on.answer = .selected (.entered ['M']) :=
    (List.cons.inj (List.cons.inj hanswers).2).1
  have hfirst : s.stage.pending[0]? = some (way ['F']) := by rw [hpending]; rfl
  have hsecond : s.stage.pending[1]? = some (way ['M']) := by rw [hpending]; rfl
  have hs : s = ((Session.new ∅).run slowHost ()
    [.setView (some []), .start (some forkScript) 0]).session := rfl
  obtain ⟨hchooses, hapart⟩ := choosing_agrees_with_jumping slowHost ∅ ()
    [.setView (some []), .start (some forkScript) 0] ()
  rw [← hs] at hchooses hapart
  exact ⟨hbusy, hpending, hnamed, hanswers, ((hchooses 0 _ hfirst).entered hback).1,
    hapart 0 1 _ _ hfirst hsecond (by decide) hback hon⟩

end Dialogue
