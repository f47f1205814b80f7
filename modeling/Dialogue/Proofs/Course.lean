import Dialogue.Session.Display
import Mathlib.Data.List.Induction

/-! # The course of conversations

    What listeners hear of a session, told as a sequence of beats. A conversation
    begins, a line is displayed, the dialogue box is cleared, the conversation is
    over. One beat stands for what the view and all plugins, or all observers,
    hear at once.

    The rules of a course are those of an automaton (`Standing.Step`). It knows
    whether a conversation is on, how many of its lines were displayed, and
    whether the box was cleared since:

    1. Outside of a conversation, clears name no conversation and line zero, and
       only there a conversation begins.
    2. A line is displayed over a cleared box, and it is the next of its
       conversation.
    3. A clear within a conversation names it and the line displayed last.
    4. A conversation is over only after a line of it was displayed and cleared.

    From the rules follows what a listener may count on at any distance
    (`Orderly`), by induction on the beats.
-/

namespace Dialogue

variable {σ : Type}

/-! ### Beats -/

/-- What happens to conversations and to the dialogue box. -/
inductive Beat
  | started (conversation : Conversation)
  | ended
  | shown (conversation : Conversation) (index : Nat) (line : DisplayedLine)
  | cleared (conversation : Option Conversation) (index : Nat)

/-- What observers hear of it: which conversation begins, or that it is over. -/
def Beat.notice? : Beat → Option (Option Conversation)
  | .started c => some (some c)
  | .ended => some none
  | _ => none

/-- The line that is displayed. -/
def Beat.line? : Beat → Option (Conversation × Nat)
  | .shown c i _ => some (c, i)
  | _ => none

/-- The conversation and the line that were displayed last, up to here. None of
    them outlasts its conversation. -/
def Beat.lastShown (bs : List Beat) : Option Conversation × Nat :=
  bs.foldl (fun last b =>
    match b with
    | .shown c i _ => (some c, i)
    | .ended => (none, 0)
    | _ => last) (none, 0)

/-- A line reads like this once its functions were run, in some scene and some
    world. -/
def Line.IsShownAs (h : Host σ) (l : Line) (d : DisplayedLine) : Prop :=
  ∃ scene w, d = ⟨l.speaker, (h.functions.run scene l.content w).text, l.image⟩

/-! ### The rules -/

/-- Where a course stands. -/
inductive Standing
  /-- No conversation is on. -/
  | outside
  /-- The first `count` lines of the conversation were displayed. Whether the box
      was cleared since. -/
  | inside (conversation : Conversation) (count : Nat) (blank : Bool)

/-- The conversation that is on. -/
def Standing.conversation? : Standing → Option Conversation
  | .outside => none
  | .inside c _ _ => some c

/-- What a clear there would name. -/
def Standing.named : Standing → Option Conversation × Nat
  | .inside c (n + 1) _ => (some c, n)
  | _ => (none, 0)

/-- A beat leads from one standing to another. -/
inductive Standing.Step (h : Host σ) : Standing → Beat → Standing → Prop
  | aside : Step h .outside (.cleared none 0) .outside
  | begins (c : Conversation) : Step h .outside (.started c) (.inside c 0 true)
  | shows {c : Conversation} {n : Nat} {l : Line} {d : DisplayedLine} (hl : c.lines[n]? = some l)
      (hd : l.IsShownAs h d) : Step h (.inside c n true) (.shown c n d) (.inside c (n + 1) false)
  | clears (c : Conversation) (n : Nat) (blank : Bool) :
      Step h (.inside c (n + 1) blank) (.cleared (some c) n) (.inside c (n + 1) true)
  | ends (c : Conversation) (n : Nat) : Step h (.inside c (n + 1) true) .ended .outside

/-- The beats lead from one standing to another, each by the rules. -/
inductive Course (h : Host σ) : Standing → List Beat → Standing → Prop
  | nil (p : Standing) : Course h p [] p
  | cons {p q r : Standing} {b : Beat} {bs : List Beat} (hb : p.Step h b q) (hbs : Course h q bs r) :
      Course h p (b :: bs) r

namespace Course

variable {h : Host σ} {p q r : Standing} {bs : List Beat} {b : Beat}

theorem single (hb : p.Step h b q) : Course h p [b] q := .cons hb (.nil q)

theorem append {cs : List Beat} (hbs : Course h p bs q) (hcs : Course h q cs r) :
    Course h p (bs ++ cs) r := by
  induction hbs with
  | nil p => exact hcs
  | cons hb _ ih => exact .cons hb (ih hcs)

/-- A course can be taken up at any of its beats. -/
theorem exists_of_append {cs : List Beat} (hcourse : Course h p (bs ++ cs) r) :
    ∃ q, Course h p bs q ∧ Course h q cs r := by
  induction bs generalizing p with
  | nil => exact ⟨p, .nil p, hcourse⟩
  | cons b bs ih =>
    cases hcourse with
    | cons hb hrest =>
      obtain ⟨q, hbs, hcs⟩ := ih hrest
      exact ⟨q, .cons hb hbs, hcs⟩

theorem exists_of_cons (hcourse : Course h p (b :: bs) r) :
    ∃ q, p.Step h b q ∧ Course h q bs r := by
  cases hcourse with
  | cons hb hbs => exact ⟨_, hb, hbs⟩

theorem eq_of_nil (hcourse : Course h p [] r) : p = r := by
  cases hcourse
  rfl

theorem exists_of_concat (hcourse : Course h p (bs ++ [b]) r) :
    ∃ q, Course h p bs q ∧ q.Step h b r := by
  obtain ⟨q, hbs, hlast⟩ := exists_of_append hcourse
  obtain ⟨q', hb, hnil⟩ := exists_of_cons hlast
  cases hnil
  exact ⟨q, hbs, hb⟩

/-! ### At any distance -/

/-- Beginnings and ends alternate, from a beginning on. -/
theorem alternate (hcourse : Course h .outside bs p) :
    ∃ past : List Conversation, bs.filterMap Beat.notice? =
      past.flatMap (fun c => [some c, none]) ++ p.conversation?.toList.map some := by
  induction bs using List.reverseRecOn generalizing p with
  | nil =>
    cases hcourse
    exact ⟨[], rfl⟩
  | append_singleton bs b ih =>
    obtain ⟨q, hbs, hb⟩ := exists_of_concat hcourse
    obtain ⟨past, hpast⟩ := ih hbs
    rw [List.filterMap_append, hpast]
    -- A beginning leaves its conversation open, and an end adds it to the past.
    cases hb with
    | aside => exact ⟨past, List.append_nil _⟩
    | begins c => exact ⟨past, by simp [Beat.notice?, Standing.conversation?]⟩
    | shows hl hd => exact ⟨past, List.append_nil _⟩
    | clears c n blank => exact ⟨past, List.append_nil _⟩
    | ends c n => exact ⟨past ++ [c], by simp [Beat.notice?, Standing.conversation?]⟩

/-- From its beginning on, as long as a conversation is not over, its lines are
    displayed one after the other. -/
theorem lines {c : Conversation} (hcourse : Course h (.inside c 0 true) bs p)
    (hon : Beat.ended ∉ bs) :
    ∃ n blank, p = .inside c n blank ∧ n ≤ c.lines.length ∧
      bs.filterMap Beat.line? = (List.range n).map (c, ·) := by
  induction bs using List.reverseRecOn generalizing p with
  | nil =>
    cases hcourse
    exact ⟨0, true, rfl, Nat.zero_le _, rfl⟩
  | append_singleton bs b ih =>
    obtain ⟨q, hbs, hb⟩ := exists_of_concat hcourse
    obtain ⟨hbefore, hlast⟩ : Beat.ended ∉ bs ∧ b ≠ .ended := by
      rw [List.mem_append, List.mem_singleton, not_or] at hon
      exact ⟨hon.1, Ne.symm hon.2⟩
    obtain ⟨n, blank, rfl, hn, hlines⟩ := ih hbs hbefore
    rw [List.filterMap_append, hlines]
    cases hb with
    | shows hl hd =>
      -- The line has the number of those displayed before.
      have hlt : n < c.lines.length := (List.getElem?_eq_some_iff.1 hl).1
      refine ⟨n + 1, false, rfl, hlt, ?_⟩
      rw [List.range_succ, List.map_append]
      rfl
    | clears c n blank => exact ⟨n + 1, true, rfl, hn, List.append_nil _⟩
    | ends c n => exact absurd rfl hlast

/-- Wherever a conversation is on, it has begun and is not over. -/
theorem exists_started {c : Conversation} {n : Nat} {blank : Bool}
    (hcourse : Course h .outside bs (.inside c n blank)) :
    ∃ earlier mid, bs = earlier ++ .started c :: mid ∧ Beat.ended ∉ mid := by
  induction bs using List.reverseRecOn generalizing n blank with
  | nil => cases hcourse
  | append_singleton bs b ih =>
    obtain ⟨q, hbs, hb⟩ := exists_of_concat hcourse
    -- Where it was on before, the last beat is not its end.
    have hstays : ∀ m before, q = .inside c m before →
        ∃ earlier mid, bs ++ [b] = earlier ++ .started c :: mid ∧ Beat.ended ∉ mid := by
      intro m before hq
      subst hq
      obtain ⟨earlier, mid, rfl, hmid⟩ := ih hbs
      have hlast : b ≠ .ended := by
        intro hended
        subst hended
        cases hb
      refine ⟨earlier, mid ++ [b], by simp, ?_⟩
      rw [List.mem_append, List.mem_singleton, not_or]
      exact ⟨hmid, Ne.symm hlast⟩
    cases hb with
    | begins c => exact ⟨bs, [], rfl, List.not_mem_nil⟩
    | shows hl hd => exact hstays _ _ rfl
    | clears c n blank => exact hstays _ _ rfl

theorem lastShown (hcourse : Course h .outside bs p) : Beat.lastShown bs = p.named := by
  induction bs using List.reverseRecOn generalizing p with
  | nil =>
    cases hcourse
    rfl
  | append_singleton bs b ih =>
    obtain ⟨q, hbs, hb⟩ := exists_of_concat hcourse
    -- What is named changes with a display and with the end, as the fold does.
    have hlast := ih hbs
    unfold Beat.lastShown at hlast ⊢
    rw [List.foldl_append, hlast]
    cases hb <;> rfl

end Course

/-! ### Orderly courses -/

/-- What can be said of the beats up to a stage without speaking of rules. -/
structure Orderly (h : Host σ) (beats : List Beat) (s : Stage) : Prop where
  /-- Beginnings and ends alternate, and the conversation that has begun and is
      not over, if there is one, is the active one. -/
  alternate : ∃ past : List Conversation, beats.filterMap Beat.notice? =
    past.flatMap (fun c => [some c, none]) ++ s.conversation?.toList.map some
  /-- From the beginning of a conversation to its end, or until now, its first
      lines are displayed in their order, up to a line that it has. Until now
      means up to the line that is played. -/
  lines : ∀ before c mid after, beats = before ++ .started c :: (mid ++ after) →
    Beat.ended ∉ mid → (after = [] ∨ after.head? = some .ended) →
    ∃ k < c.lines.length, mid.filterMap Beat.line? = (List.range (k + 1)).map (c, ·) ∧
      (after = [] → s.conversation? = some c ∧ k = s.lineIndex)
  /-- A line is displayed only while its conversation has begun and is not over,
      with the speaker and the image that it has and what its functions make of
      its text. -/
  within : ∀ before c i d after, beats = before ++ .shown c i d :: after →
    (∃ earlier mid, before = earlier ++ .started c :: mid ∧ Beat.ended ∉ mid) ∧
      ∃ l, c.lines[i]? = some l ∧ l.IsShownAs h d
  /-- Right behind a displayed line comes a clear, before anything else. -/
  apart : ∀ before c i d b after, beats = before ++ .shown c i d :: b :: after →
    b = .cleared (some c) i
  /-- A clear names the line that was displayed last in the conversation that is
      on, and outside of conversations nothing. -/
  named : ∀ before c i after, beats = before ++ .cleared c i :: after →
    (c, i) = Beat.lastShown before

/-- Where the course stands on a stage between requests. -/
def Stage.standing (s : Stage) : Standing :=
  match s.conversation? with
  | none => .outside
  | some c => .inside c (s.lineIndex + 1) false

/-- A course that follows the rules up to where the stage stands is orderly. -/
theorem Course.orderly {h : Host σ} {beats : List Beat} {s : Stage}
    (hcourse : Course h .outside beats s.standing) : Orderly h beats s where
  alternate := by
    obtain ⟨past, hpast⟩ := hcourse.alternate
    have hstanding : s.standing.conversation? = s.conversation? := by
      unfold Stage.standing
      cases s.conversation? <;> rfl
    rw [hstanding] at hpast
    exact ⟨past, hpast⟩
  lines := by
    intro before c mid after hbeats hon hafter
    rw [hbeats] at hcourse
    obtain ⟨p, -, hrest⟩ := exists_of_append hcourse
    obtain ⟨q, hstarted, hrest⟩ := exists_of_cons hrest
    cases hstarted
    obtain ⟨r, hmid, hrest⟩ := exists_of_append hrest
    obtain ⟨n, blank, rfl, hn, hlines⟩ := hmid.lines hon
    rcases hafter with rfl | hafter
    · -- The conversation is still on, at the line that is played.
      have hstanding := eq_of_nil hrest
      unfold Stage.standing at hstanding
      split at hstanding
      · cases hstanding
      · next c' hc' =>
        cases hstanding
        exact ⟨s.lineIndex, hn, hlines, fun _ => ⟨hc', rfl⟩⟩
    · obtain ⟨after', rfl⟩ := List.head?_eq_some_iff.1 hafter
      obtain ⟨q, hended, -⟩ := exists_of_cons hrest
      cases hended with
      | ends c k => exact ⟨k, hn, hlines, by simp⟩
  within := by
    intro before c i d after hbeats
    rw [hbeats] at hcourse
    obtain ⟨p, hbefore, hrest⟩ := exists_of_append hcourse
    obtain ⟨q, hshown, -⟩ := exists_of_cons hrest
    cases hshown with
    | shows hl hd => exact ⟨hbefore.exists_started, _, hl, hd⟩
  apart := by
    intro before c i d b after hbeats
    rw [hbeats] at hcourse
    obtain ⟨p, -, hrest⟩ := exists_of_append hcourse
    obtain ⟨q, hshown, hrest⟩ := exists_of_cons hrest
    obtain ⟨r, hb, -⟩ := exists_of_cons hrest
    cases hshown
    cases hb
    rfl
  named := by
    intro before c i after hbeats
    rw [hbeats] at hcourse
    obtain ⟨p, hbefore, hrest⟩ := exists_of_append hcourse
    obtain ⟨q, hcleared, -⟩ := exists_of_cons hrest
    rw [hbefore.lastShown]
    cases hcleared <;> rfl

end Dialogue
