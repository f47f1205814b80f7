import Dialogue.Proofs.Acceptance
import Dialogue.Proofs.Alike
import Dialogue.Proofs.Layout
import Dialogue.Proofs.Refusal

/-! # Scripts put together

    A script that begins with a header can be put below another one. If the upper
    script is refused, so are both together, in the same way. If it compiles, both
    together come to what the lower script comes to alone, behind the conversations
    of the upper one and under higher line numbers. There is one exception. A header
    of the lower script may repeat a name of the upper one, and the script is then
    refused for the first header that does, if reading comes that far.

    So nothing goes on across a header but the names. The proof splits what the lower
    script finds into two parts. Higher line numbers change nothing but the numbers
    (`finish_shift`). And conversations that are closed already change nothing but
    the names that are taken, by a step lemma and an induction on the items
    (`foldlM_behind`).
-/

namespace Dialogue

/-! ### Further down -/

/-- The refusal `d` lines further down. -/
def CompileError.shift (d : Nat) (e : CompileError) : CompileError := { e with line := e.line + d }

namespace Compilation

variable {globals : Variables} {cs : List Conversation} {s : Compilation}

/-- Further down, a script is refused for the same cause there, or compiles to the
    same. -/
theorem finish_shift (globals : Variables) (cs : List Conversation) (d : Nat) (items : List Item) :
    finish globals ⟨cs, none⟩ (items.map (Item.shift d)) =
      (finish globals ⟨cs, none⟩ items).mapError (CompileError.shift d) := by
  let L : Nat → Nat → Prop := fun line line' => line' = line + d
  have hstart : Compilation.Alike L Eq ⟨cs, none⟩ ⟨cs, none⟩ :=
    ⟨Conversation.forall₂_alike_eq_iff.2 rfl, .none⟩
  have hitems : List.Forall₂ (fun i i' => i.Alike L i' ∧
      ∀ raw, i.token = .ok (.text raw) → raw.CompilesAlike Eq globals globals)
      items (items.map (Item.shift d)) := by
    rw [List.forall₂_map_right_iff, List.forall₂_same]
    intro i _
    refine ⟨⟨rfl, rfl⟩, ?_⟩
    intro raw _ speaker
    exact .refl _ (fun _ => rfl) fun _ => rfl
  have halike : Except.Alike (CompileError.Alike L) (List.Forall₂ (Conversation.Alike Eq))
      (finish globals ⟨cs, none⟩ items) (finish globals ⟨cs, none⟩ (items.map (Item.shift d))) :=
    hstart.readOn hitems
  revert halike
  generalize finish globals ⟨cs, none⟩ items = x
  generalize finish globals ⟨cs, none⟩ (items.map (Item.shift d)) = y
  intro halike
  cases halike with
  | @error e e' he =>
    obtain ⟨line, cause⟩ := e
    obtain ⟨line', cause'⟩ := e'
    obtain ⟨rfl, rfl⟩ := he
    rfl
  | ok h =>
    rw [Conversation.forall₂_alike_eq_iff.1 h]
    rfl

/-! ### Behind closed conversations -/

/-- The same, with these conversations closed before. -/
def behind (cs : List Conversation) (s : Compilation) : Compilation :=
  { s with closed := cs ++ s.closed }

theorem close_behind (cs : List Conversation) (s : Compilation) :
    (s.behind cs).close = s.close.map (cs ++ ·) := by
  obtain ⟨closed, draft⟩ := s
  cases draft with
  | none => rfl
  | some d =>
    simp only [behind, close]
    cases d.close with
    | error e => rfl
    | ok c => simp [bind, Except.bind, pure, Except.pure, Except.map]

theorem current_behind (cs : List Conversation) (s : Compilation) (line : Nat) :
    (s.behind cs).current line = s.current line := by
  obtain ⟨closed, draft⟩ := s
  cases draft with
  | none => rfl
  | some d => rfl

/-- A header may repeat a name where it is the name of one of the conversations that
    were closed before. -/
theorem isSome_find?_append (closed : List Conversation) (name : Text) :
    (Conversation.find? (cs ++ closed) name).isSome = true ↔
      (∃ c ∈ cs, c.name = name) ∨ (Conversation.find? closed name).isSome = true := by
  simp only [Conversation.find?_isSome_iff, List.mem_append, or_and_right, exists_or]

/-- A step goes as it would alone, unless it is about a header whose name is taken. -/
theorem step_behind {i : Item} (hfree : ∀ name, i.token = .ok (.header name) →
      (∃ closed, s.close = .ok closed) → ∀ c ∈ cs, c.name ≠ name) :
    (s.behind cs).step globals i = (s.step globals i).map (behind cs) := by
  obtain ⟨line, token⟩ := i
  cases token with
  | error cause => rfl
  | ok t =>
    show (s.behind cs).read globals line t = (s.read globals line t).map (behind cs)
    cases t with
    | header name =>
      simp only [read, close_behind]
      cases hclose : s.close with
      | error e => rfl
      | ok closed =>
        have hnew : ¬ ∃ c ∈ cs, c.name = name := by
          rintro ⟨c, hc, hname⟩
          exact hfree name rfl ⟨closed, hclose⟩ c hc hname
        have hsame : (Conversation.find? (cs ++ closed) name).isSome =
            (Conversation.find? closed name).isSome := by
          rw [Bool.eq_iff_iff, isSome_find?_append]
          exact or_iff_right hnew
        simp only [Except.map, bind, Except.bind, hsame]
        by_cases htaken : (Conversation.find? closed name).isSome = true
        · rw [if_pos htaken, if_pos htaken]
          rfl
        · rw [if_neg htaken, if_neg htaken]
          rfl
    -- The other tokens only look at the open conversation.
    | speaker name =>
      simp only [read, current_behind]
      cases s.current line with
      | error e => rfl
      | ok d => rfl
    | text raw =>
      simp only [read, current_behind]
      cases s.current line with
      | error e => rfl
      | ok d =>
        simp only [bind, Except.bind]
        cases Line.compile globals d.speaker raw with
        | error e => rfl
        | ok l => rfl
    | choice label target =>
      simp only [read, current_behind]
      cases s.current line with
      | error e => rfl
      | ok d =>
        simp only [bind, Except.bind]
        cases d.addChoice? ⟨label, target⟩ with
        | none => rfl
        | some d' => rfl

/-- Reading on from here, `name` on `line` is the first header with a name among
    those of the conversations, and reading comes to it: the items before it are
    read, and the conversation that is open there is closed. -/
def Meets (globals : Variables) (cs : List Conversation) (s : Compilation) (items : List Item)
    (line : Nat) (name : Text) : Prop :=
  ∃ before after, items = before ++ ⟨line, .ok (.header name)⟩ :: after ∧
    (∃ closed, s.finish globals before = .ok closed) ∧ (∃ c ∈ cs, c.name = name) ∧
    ∀ earlier, .header earlier ∈ Item.tokens before → ∀ c ∈ cs, c.name ≠ earlier

/-- A header that is read closes what was open. -/
theorem exists_close_of_step {i : Item} {s' : Compilation} {name : Text}
    (hi : i.token = .ok (.header name)) (h : s.step globals i = .ok s') :
    ∃ closed, s.close = .ok closed := by
  obtain ⟨line, token⟩ := i
  cases hi
  have hread : s.read globals line (.header name) = .ok s' := h
  simp only [read, Except.bind_eq_ok_iff] at hread
  obtain ⟨closed, hclosed, -⟩ := hread
  exact ⟨closed, hclosed⟩

/-- As long as no such header is met, everything is read as it would be alone. -/
theorem foldlM_behind {items : List Item}
    (h : ¬ ∃ line name, s.Meets globals cs items line name) :
    items.foldlM (step globals) (s.behind cs) =
      (items.foldlM (step globals) s).map (behind cs) := by
  induction items generalizing s with
  | nil => rfl
  | cons i items ih =>
    have hfree : ∀ name, i.token = .ok (.header name) → (∃ closed, s.close = .ok closed) →
        ∀ c ∈ cs, c.name ≠ name := by
      intro name hi hclosed c hc hname
      refine h ⟨i.line, name, [], items, ?_, hclosed, ⟨c, hc, hname⟩, ?_⟩
      · rw [← hi]
        rfl
      · intro earlier hearlier
        cases hearlier
    rw [List.foldlM_cons, List.foldlM_cons, step_behind hfree]
    cases hstep : s.step globals i with
    | error e => rfl
    | ok s' =>
      refine ih ?_
      -- What is met from the next state on is met from here on.
      rintro ⟨line, name, before, after, rfl, ⟨closed, hclosed⟩, htaken, hfirst⟩
      refine h ⟨line, name, i :: before, after, rfl, ⟨closed, ?_⟩, htaken, ?_⟩
      · rw [finish_cons, hstep]
        exact hclosed
      · intro earlier hearlier
        obtain ⟨j, hj, hheader⟩ := Item.mem_tokens_iff.1 hearlier
        rcases List.mem_cons.1 hj with rfl | hj
        · exact hfree earlier hheader (exists_close_of_step hheader hstep)
        · exact hfirst earlier (Item.mem_tokens_iff.2 ⟨j, hj, hheader⟩)

theorem finish_behind {items : List Item}
    (h : ¬ ∃ line name, s.Meets globals cs items line name) :
    (s.behind cs).finish globals items = (s.finish globals items).map (cs ++ ·) := by
  rw [finish, finish, foldlM_behind h]
  cases items.foldlM (step globals) s with
  | error e => rfl
  | ok s' => exact close_behind cs s'

/-- Where such a header is met, the script is refused for it. -/
theorem finish_behind_of_meets {items : List Item} {line : Nat} {name : Text}
    (h : s.Meets globals cs items line name) :
    (s.behind cs).finish globals items = .error ⟨line, .duplicateConversation name⟩ := by
  obtain ⟨before, after, rfl, ⟨closed, hclosed⟩, htaken, hfirst⟩ := h
  -- Nothing is met before it, so reading comes there as it would alone.
  have hnone : ¬ ∃ line name, s.Meets globals cs before line name := by
    rintro ⟨line', name', before', after', rfl, -, ⟨c, hc, hname⟩, -⟩
    have hearlier : .header name' ∈ Item.tokens (before' ++ ⟨line', .ok (.header name')⟩ :: after') :=
      Item.mem_tokens_iff.2 ⟨_, List.mem_append_right _ List.mem_cons_self, rfl⟩
    exact hfirst name' hearlier c hc hname
  have hread := foldlM_behind hnone
  rw [finish, Except.bind_eq_ok_iff] at hclosed
  obtain ⟨s', hs', hclose⟩ := hclosed
  rw [hs'] at hread
  have hstep : (s'.behind cs).step globals ⟨line, .ok (.header name)⟩ =
      .error ⟨line, .duplicateConversation name⟩ := by
    show (s'.behind cs).read globals line (.header name) = _
    have hfound : (Conversation.find? (cs ++ closed) name).isSome = true :=
      (isSome_find?_append closed name).2 (.inl htaken)
    simp only [read, close_behind, hclose, Except.map, bind, Except.bind, hfound, if_true]
    rfl
  rw [finish, List.foldlM_append, hread]
  show (do let s ← List.foldlM _ (s'.behind cs) _; s.close) = _
  rw [List.foldlM_cons, hstep]
  rfl

/-! ### At the seam -/

/-- A header goes by what closing comes to. -/
theorem finish_header_congr {s s' : Compilation} (h : s.close = s'.close) (line : Nat) (name : Text)
    (items : List Item) :
    s.finish globals (⟨line, .ok (.header name)⟩ :: items) =
      s'.finish globals (⟨line, .ok (.header name)⟩ :: items) := by
  have hstep : s.step globals ⟨line, .ok (.header name)⟩ =
      s'.step globals ⟨line, .ok (.header name)⟩ := by
    show s.read globals line (.header name) = s'.read globals line (.header name)
    simp only [read, h]
  rw [finish_cons, finish_cons, hstep]

theorem finish_header_of_close_eq_error {e : CompileError} (h : s.close = .error e) (line : Nat)
    (name : Text) (items : List Item) :
    s.finish globals (⟨line, .ok (.header name)⟩ :: items) = .error e := by
  have hstep : s.step globals ⟨line, .ok (.header name)⟩ = .error e := by
    show s.read globals line (.header name) = .error e
    simp only [read, h]
    rfl
  rw [finish_cons, hstep]
  rfl

end Compilation

/-! ### Whole scripts -/

section Whole

variable {globals : Variables} {s t : Text} {line : Nat} {name : Text}

/-- What `s` leaves open is closed at its end or by the header of `t`, and is refused
    in the same way. -/
theorem compile_append_of_error
    (hheader : (Item.ofSource t).head? = some ⟨line, .ok (.header name)⟩) {e : CompileError}
    (hs : compile globals s = .error e) : compile globals (s ++ '\n' :: t) = .error e := by
  obtain ⟨rest, ht⟩ := List.head?_eq_some_iff.1 hheader
  rw [compile, compileItems, Except.bind_eq_error_iff] at hs
  rw [compile, Item.ofSource_append_newline]
  rcases hs with hread | ⟨r, hread, hclose⟩
  · rw [compileItems, List.foldlM_append, hread]
    rfl
  · rw [Compilation.compileItems_append hread, ht]
    exact Compilation.finish_header_of_close_eq_error hclose _ _ _

/-- Of a script `s` that compiles only the conversations are handed on. -/
theorem compile_append_of_ok
    (hheader : (Item.ofSource t).head? = some ⟨line, .ok (.header name)⟩) {cs : List Conversation}
    (hs : compile globals s = .ok cs) :
    compile globals (s ++ '\n' :: t) =
      ((Compilation.empty.behind cs).finish globals (Item.ofSource t)).mapError
        (CompileError.shift (s.count '\n' + 1)) := by
  obtain ⟨rest, ht⟩ := List.head?_eq_some_iff.1 hheader
  rw [compile, compileItems, Except.bind_eq_ok_iff] at hs
  obtain ⟨r, hread, hclose⟩ := hs
  -- The first header closes what `s` left open, as if there was nothing but that.
  have hclosed : r.close = Compilation.close ⟨cs, none⟩ := hclose
  have hbehind : Compilation.empty.behind cs = ⟨cs, none⟩ := by
    simp [Compilation.behind, Compilation.empty]
  rw [hbehind, ← Compilation.finish_shift, compile, Item.ofSource_append_newline,
    Compilation.compileItems_append hread, ht]
  exact Compilation.finish_header_congr hclosed _ _ _

end Whole

/-- A script `t` that begins with a header, below a script `s`. If `s` is refused,
    both together are, in the same way. If `s` compiles, they are refused for the
    first header of `t` that repeats a name of `s`, if reading comes to it, and else
    for what `t` is refused for, both on the lines where that stands now. If there is
    nothing of either, both together compile to what `s` and `t` compile to. -/
theorem compile_append_newline (globals : Variables) (s t : Text) {line : Nat} {name : Text}
    (hheader : (Item.ofSource t).head? = some ⟨line, .ok (.header name)⟩) :
    let joined := compile globals (s ++ '\n' :: t)
    let d := s.count '\n' + 1
    (∀ e, compile globals s = .error e → joined = .error e) ∧
    ∀ cs, compile globals s = .ok cs →
      (∀ line name, Compilation.empty.Meets globals cs (Item.ofSource t) line name →
        joined = .error ⟨line + d, .duplicateConversation name⟩) ∧
      ((¬ ∃ line name, Compilation.empty.Meets globals cs (Item.ofSource t) line name) →
        (∀ e, compile globals t = .error e → joined = .error ⟨e.line + d, e.cause⟩) ∧
        ∀ ct, compile globals t = .ok ct → joined = .ok (cs ++ ct)) := by
  intro joined d
  refine ⟨fun e he => compile_append_of_error hheader he, ?_⟩
  intro cs hcs
  have hjoined : joined = ((Compilation.empty.behind cs).finish globals
      (Item.ofSource t)).mapError (CompileError.shift d) := compile_append_of_ok hheader hcs
  refine ⟨?_, ?_⟩
  · intro line' name' hmeets
    rw [hjoined, Compilation.finish_behind_of_meets hmeets]
    rfl
  · intro hnone
    have halone : (Compilation.empty.behind cs).finish globals (Item.ofSource t) =
        (compile globals t).map (cs ++ ·) := Compilation.finish_behind hnone
    refine ⟨?_, ?_⟩
    · intro e he
      rw [hjoined, halone, he]
      rfl
    · intro ct hct
      rw [hjoined, halone, hct]
      rfl

/-! Two scripts, the lower of which ends with an empty conversation. Its name comes in
    the upper one, too, and that is found first. -/

/-- The upper script. -/
def upperSource : Text := "\x7b\x7bConversationName(A)\x7d\x7d\nHi".toList

/-- The lower script. -/
def lowerSource : Text :=
  "\n\x7b\x7bConversationName(B)\x7d\x7d\nHo\n\x7b\x7bConversationName(A)\x7d\x7d".toList

/-- Alone the lower script is refused on its line four, for the empty conversation.
    Below the upper script it is refused on line six, for the name. -/
theorem compile_append_upper_lower :
    (Item.ofSource lowerSource).head? = some ⟨2, .ok (.header ['B'])⟩ ∧
    compile ∅ lowerSource = .error ⟨4, .emptyConversation ['A']⟩ ∧
    compile ∅ (upperSource ++ '\n' :: lowerSource) = .error ⟨6, .duplicateConversation ['A']⟩ := by
  have hheader : (Item.ofSource lowerSource).head? = some ⟨2, .ok (.header ['B'])⟩ := rfl
  have hupper : compile ∅ upperSource = .ok [⟨['A'], [⟨[], ⟨['H', 'i'], []⟩, none⟩], []⟩] := by
    decide +kernel
  have hmeets : Compilation.empty.Meets ∅ [⟨['A'], [⟨[], ⟨['H', 'i'], []⟩, none⟩], []⟩]
      (Item.ofSource lowerSource) 4 ['A'] := by
    refine ⟨[⟨2, .ok (.header ['B'])⟩, ⟨3, .ok (.text ['H', 'o'])⟩], [], rfl, ?_, ?_, ?_⟩
    · exact ⟨[⟨['B'], [⟨[], ⟨['H', 'o'], []⟩, none⟩], []⟩], by decide +kernel⟩
    · exact ⟨_, List.mem_singleton_self _, rfl⟩
    · simp [Item.tokens, Except.toOption]
  obtain ⟨-, hjoined⟩ := compile_append_newline ∅ upperSource lowerSource hheader
  exact ⟨hheader, by decide +kernel, (hjoined _ hupper).1 4 ['A'] hmeets⟩

end Dialogue
