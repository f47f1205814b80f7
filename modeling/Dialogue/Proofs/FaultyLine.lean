import Dialogue.Proofs.Acceptance
import Dialogue.Proofs.Layout
import Dialogue.Proofs.Refusal
import Mathlib.Data.List.Induction

/-! # The line that a refusal names

    A refusal names the first line that is at fault. Cut right behind that line, the
    script is refused in the same way. Cut right before it, there is nothing to
    refuse but an empty conversation at the end, which the lines cut away might
    have filled.

    Most refusals name the line that was being read. The exception is an empty
    conversation. It shows only at the next header or at the end of the script, and
    the refusal goes back to the header that opened it. So the proof has to find
    that header again: `exists_header_of_foldlM` says that it stands among the lines
    that were read, that the lines before it compile, and that the script is refused
    for the empty conversation as soon as it ends right behind its header.
-/

namespace Dialogue

/-! ### The header of the open conversation -/

/-- The item that opened the conversation. -/
def Draft.header (d : Draft) : Item := ⟨d.headerLine, .ok (.header d.conversation.name)⟩

namespace Compilation

variable {globals : Variables} {s s' : Compilation} {d' : Draft} {i : Item}

/-- A step that ends with an open conversation has just opened it, with nothing in
    it yet, or has found it open. -/
theorem header_of_step (hstep : s.step globals i = .ok s') (hd' : s'.draft = some d') :
    (i = d'.header ∧ d'.conversation.lines = [] ∧ ∃ closed, s.close = .ok closed) ∨
      ∃ d, s.draft = some d ∧ d.header = d'.header := by
  obtain ⟨line, token⟩ := i
  cases token with
  | error cause => cases hstep
  | ok t =>
    have hread : s.read globals line t = .ok s' := hstep
    cases t with
    | header name =>
      left
      simp only [read, Except.bind_eq_ok_iff] at hread
      obtain ⟨closed, hclosed, hopen⟩ := hread
      split at hopen
      · cases hopen
      · cases hopen
        cases hd'
        exact ⟨rfl, rfl, closed, hclosed⟩
    -- All other tokens need an open conversation, and keep its header.
    | speaker name =>
      right
      simp only [read, Except.bind_eq_ok_iff] at hread
      obtain ⟨d, hd, hdone⟩ := hread
      cases hdone
      cases hd'
      exact ⟨d, current_eq_ok hd, rfl⟩
    | text raw =>
      right
      simp only [read, Except.bind_eq_ok_iff] at hread
      obtain ⟨d, hd, l, -, hdone⟩ := hread
      cases hdone
      cases hd'
      exact ⟨d, current_eq_ok hd, rfl⟩
    | choice label target =>
      right
      simp only [read, Except.bind_eq_ok_iff] at hread
      obtain ⟨d, hd, hplace⟩ := hread
      refine ⟨d, current_eq_ok hd, ?_⟩
      unfold Draft.addChoice? at hplace
      split at hplace
      · cases hplace
      · next d₁ hadded =>
        cases hplace
        cases hd'
        split at hadded
        · cases hadded
        · cases hadded
          rfl

end Compilation

/-- The header of the conversation that is open behind some items stands among them.
    The items before it compile, and with it alone behind them they are refused,
    since its conversation is empty. -/
theorem exists_header_of_foldlM {globals : Variables} {items : List Item} {s : Compilation}
    {d : Draft} (hs : items.foldlM (Compilation.step globals) .empty = .ok s)
    (hd : s.draft = some d) :
    ∃ before after, items = before ++ d.header :: after ∧
      (∃ cs, compileItems globals before = .ok cs) ∧
      compileItems globals (before ++ [d.header]) =
        .error ⟨d.headerLine, .emptyConversation d.conversation.name⟩ := by
  induction items using List.reverseRecOn generalizing s d with
  | nil =>
    cases hs
    cases hd
  | append_singleton items i ih =>
    rw [List.foldlM_append, Except.bind_eq_ok_iff] at hs
    obtain ⟨s₀, hs₀, hlast⟩ := hs
    have hstep : s₀.step globals i = .ok s := by
      simpa using hlast
    rcases Compilation.header_of_step hstep hd with ⟨rfl, hlines, closed, hclosed⟩ | ⟨d₀, hd₀, hsame⟩
    · refine ⟨items, [], rfl, ⟨closed, ?_⟩, ?_⟩
      · rw [Compilation.compileItems_eq_close hs₀, hclosed]
      · have hhollow : s.IsHollow ⟨d.headerLine, .emptyConversation d.conversation.name⟩ :=
          ⟨d, hd, hlines, rfl⟩
        have hwhole : (items ++ [d.header]).foldlM (Compilation.step globals) .empty = .ok s := by
          rw [List.foldlM_append, hs₀]
          exact hlast
        rw [Compilation.compileItems_eq_close hwhole, hhollow.close_eq]
    · -- The last item did not open the conversation, so its header stands further up.
      obtain ⟨before, after, rfl, hbefore, hrefused⟩ := ih hs₀ hd₀
      have hheader : d₀.headerLine = d.headerLine ∧ d₀.conversation.name = d.conversation.name := by
        simpa [Draft.header] using hsame
      rw [hsame, hheader.1, hheader.2] at hrefused
      refine ⟨before, after ++ [i], ?_, hbefore, hrefused⟩
      rw [hsame]
      simp

/-! ### Where a refusal shows -/

/-- The refusal shows at item `i`, behind the items before it. Those can only be
    refused for an empty conversation, and not even for that where the refusal is
    about a whole conversation. -/
structure Item.Exposes (globals : Variables) (before : List Item) (i : Item) (e : CompileError) :
    Prop where
  line : e.line = i.line
  refused : compileItems globals (before ++ [i]) = .error e
  earlier : (∃ cs, compileItems globals before = .ok cs) ∨
    ∃ line name, compileItems globals before = .error ⟨line, .emptyConversation name⟩
  whole : (∃ name, e.cause = .emptyConversation name ∨ e.cause = .duplicateConversation name) →
    ∃ cs, compileItems globals before = .ok cs

/-- The refusal of an empty conversation shows at its header. -/
theorem exists_exposes_of_isHollow {globals : Variables} {items : List Item} {s : Compilation}
    {e : CompileError} (hs : items.foldlM (Compilation.step globals) .empty = .ok s)
    (he : s.IsHollow e) :
    ∃ before i after, items = before ++ i :: after ∧ i.Exposes globals before e := by
  obtain ⟨d, hd, -, rfl⟩ := he
  obtain ⟨before, after, hitems, hbefore, hrefused⟩ := exists_header_of_foldlM hs hd
  exact ⟨before, d.header, after, hitems, rfl, hrefused, .inl hbefore, fun _ => hbefore⟩

/-- Items that were read make a script that compiles, but for an empty conversation at
    its end. -/
theorem compileItems_of_foldlM {globals : Variables} {items : List Item} {s : Compilation}
    (hs : items.foldlM (Compilation.step globals) .empty = .ok s) :
    (∃ cs, compileItems globals items = .ok cs) ∨
      ∃ line name, compileItems globals items = .error ⟨line, .emptyConversation name⟩ := by
  rw [Compilation.compileItems_eq_close hs]
  cases hclose : s.close with
  | ok cs => exact .inl ⟨cs, rfl⟩
  | error e =>
    obtain ⟨d, -, -, rfl⟩ := Compilation.isHollow_of_close hclose
    exact .inr ⟨_, _, rfl⟩

/-- Every refusal of a source shows at one of its items. -/
theorem exists_exposes {globals : Variables} {source : Text} {e : CompileError}
    (h : compile globals source = .error e) :
    ∃ before i after, Item.ofSource source = before ++ i :: after ∧
      i.Exposes globals before e := by
  rw [compile, compileItems, Except.bind_eq_error_iff] at h
  rcases h with hread | ⟨s, hs, hclose⟩
  · obtain ⟨before, i, after, s, hitems, hs, hstep⟩ := exists_of_foldlM_eq_error hread
    have hi : i ∈ Item.ofSource source := by
      rw [hitems]
      exact List.mem_append_right before List.mem_cons_self
    have hrefused : compileItems globals (before ++ [i]) = .error e := by
      rw [Compilation.compileItems_append hs, Compilation.finish_cons, hstep]
      rfl
    have hearlier := compileItems_of_foldlM hs
    rcases (Compilation.refuses_of_step hstep).reason hi with
      hhollow | ⟨closed, name, hclosed, rfl⟩ | ⟨hline, hown⟩
    · -- The refusal goes back to a header further up.
      obtain ⟨early, j, late, rfl, hj⟩ := exists_exposes_of_isHollow hs hhollow
      exact ⟨early, j, late ++ i :: after, by simpa using hitems, hj⟩
    · have hbefore : ∃ cs, compileItems globals before = .ok cs :=
        ⟨closed, by rw [Compilation.compileItems_eq_close hs, hclosed]⟩
      exact ⟨before, i, after, hitems, rfl, hrefused, hearlier, fun _ => hbefore⟩
    · refine ⟨before, i, after, hitems, hline, hrefused, hearlier, ?_⟩
      intro hwhole
      obtain ⟨name, hcause | hcause⟩ := hwhole
      · rw [hcause] at hown
        cases hown
      · rw [hcause] at hown
        cases hown
  · exact exists_exposes_of_isHollow hs (Compilation.isHollow_of_close hclose)

/-! ### Cutting a script at the line -/

/-- A refusal names a line that the script has. The lines up to and with it are
    refused in the same way. The lines before it compile, or are refused because a
    conversation is empty. If the refusal is itself about an empty conversation, or
    about a name that comes twice, they compile. -/
theorem compile_takeLines_of_error (globals : Variables) (source : Text) {e : CompileError}
    (h : compile globals source = .error e) :
    1 ≤ e.line ∧ e.line ≤ source.lines.length ∧
    compile globals (source.takeLines e.line) = .error e ∧
    ((∃ cs, compile globals (source.takeLines (e.line - 1)) = .ok cs) ∨
      ∃ line name, compile globals (source.takeLines (e.line - 1)) =
        .error ⟨line, .emptyConversation name⟩) ∧
    ((∃ name, e.cause = .emptyConversation name ∨ e.cause = .duplicateConversation name) →
      ∃ cs, compile globals (source.takeLines (e.line - 1)) = .ok cs) := by
  obtain ⟨before, i, after, hitems, hi⟩ := exists_exposes h
  have hmem : i ∈ Item.ofLines 1 source.lines := by
    rw [← Item.ofSource_eq_ofLines, hitems]
    exact List.mem_append_right before List.mem_cons_self
  obtain ⟨hlow, hhigh⟩ := Item.line_of_mem_ofLines hmem
  obtain ⟨hwith, hwithout⟩ := Item.ofSource_takeLines_line hitems
  have hupTo : compile globals (source.takeLines e.line) = compileItems globals (before ++ [i]) := by
    rw [compile, hi.line, hwith]
  have hbefore : compile globals (source.takeLines (e.line - 1)) = compileItems globals before := by
    rw [compile, hi.line, hwithout]
  rw [hupTo, hbefore]
  have hline := hi.line
  exact ⟨by omega, by omega, hi.refused, hi.earlier, hi.whole⟩

/-! A script with a comment, a blank line and an empty conversation that only shows
    two lines below its header, at the next one. -/

/-- The script. -/
def hollowSource : Text := String.toList
  "# Scene

\x7b\x7bConversationName(A)\x7d\x7d
Hello
\x7b\x7bConversationName(B)\x7d\x7d
[Bob]
\x7b\x7bConversationName(C)\x7d\x7d
Bye"

/-- The refusal names line five, and without that line the script compiles. -/
theorem compile_takeLines_hollow :
    compile ∅ hollowSource = .error ⟨5, .emptyConversation ['B']⟩ ∧
    compile ∅ (hollowSource.takeLines 5) = .error ⟨5, .emptyConversation ['B']⟩ ∧
    ∃ cs, compile ∅ (hollowSource.takeLines 4) = .ok cs := by
  have hrefused : compile ∅ hollowSource = .error ⟨5, .emptyConversation ['B']⟩ := by
    decide +kernel
  obtain ⟨-, -, hsame, -, hwhole⟩ := compile_takeLines_of_error ∅ hollowSource hrefused
  exact ⟨hrefused, hsame, hwhole ⟨_, .inl rfl⟩⟩

end Dialogue
