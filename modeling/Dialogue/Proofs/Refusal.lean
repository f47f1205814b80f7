import Dialogue.Proofs.Cutting
import Dialogue.Proofs.TextLine

/-! # Why a script is refused

    Every refusal has one of few reasons (`Compilation.Refuses`). The line says
    nothing, or its text does not compile; it stands above the first header; it
    is a choice above the first text of its conversation; it is a header that
    repeats a name, or that closes a conversation without a text. The last of
    these also happens at the end of the script.

    A script is refused for the first item that there is a reason for, after all
    items before it were read (`compileItems_eq_error`).
-/

namespace Dialogue

/-! ### Sequences of steps -/

/-- A sequence of steps is refused at one of them, after those before it. -/
theorem exists_of_foldlM_eq_error {ε α β : Type} {step : β → α → Except ε β} {as : List α} {b : β}
    {e : ε} (h : as.foldlM step b = .error e) :
    ∃ before a after b', as = before ++ a :: after ∧ before.foldlM step b = .ok b' ∧
      step b' a = .error e := by
  induction as generalizing b with
  | nil => cases h
  | cons a as ih =>
    rw [List.foldlM_cons, Except.bind_eq_error_iff] at h
    rcases h with h | ⟨b', hfirst, hrest⟩
    · exact ⟨[], a, as, b, rfl, rfl, h⟩
    · obtain ⟨before, a', after, b'', rfl, hbefore, hstep⟩ := ih hrest
      refine ⟨a :: before, a', after, b'', rfl, ?_, hstep⟩
      rw [List.foldlM_cons, hfirst]
      exact hbefore

/-! ### Single lines -/

/-- A line that says nothing begins as a header or as a choice. -/
theorem Token.eq_of_ofLine_eq_error {t : Text} {cause : Cause} (h : ofLine t = .error cause) :
    cause = .malformedHeader t ∨ cause = .malformedChoice t := by
  unfold ofLine at h
  split at h
  · split at h
    · cases h
    · cases h
      exact .inl rfl
  · split at h
    · cases h
    · split at h
      · split at h
        · cases h
        · cases h
          exact .inr rfl
      · cases h

/-- A piece that says nothing is a marker. -/
theorem Piece.eq_of_meaning_eq_error {t : Text} {p : Piece} (hp : p ∈ ofText t) {cause : Cause}
    (h : p.meaning = .error cause) :
    cause = .unterminatedMarker ∨ ∃ inner, cause = .malformedMarker inner := by
  obtain ⟨rest, hfits⟩ := exists_fits_of_mem_ofText hp
  cases hfits with
  | closed hfirst => exact .inr ⟨_, Segment.eq_of_ofMarker_eq_error h⟩
  | unclosed hnone =>
    cases h
    exact .inl rfl
  | _ => cases h

/-- Pieces are refused for one of them that says nothing, or for a variable that
    has no value. -/
theorem Stretch.eq_of_ofPieces_eq_error {globals : Variables} {ps : List Piece} {cause : Cause}
    (h : ofPieces globals ps = .error cause) :
    (∃ p ∈ ps, p.meaning = .error cause) ∨
      ∃ p ∈ ps, ∃ name, p.meaning = .ok (.reference name) ∧ name ∉ globals ∧
        cause = .unresolvedVariable name := by
  induction ps with
  | nil => cases h
  | cons p ps ih =>
    simp only [ofPieces, Except.bind_eq_error_iff] at h
    rcases h with hmeaning | ⟨s, hs, hsegment | ⟨a, -, hrest | ⟨b, -, hdone⟩⟩⟩
    · exact .inl ⟨p, List.mem_cons_self, hmeaning⟩
    · -- Only a reference can go wrong by itself.
      cases s with
      | reference name =>
        rw [ofSegment] at hsegment
        split at hsegment
        · cases hsegment
        · next hnone =>
          cases hsegment
          refine .inr ⟨p, List.mem_cons_self, name, hs, ?_, rfl⟩
          rw [← Std.ExtTreeMap.isSome_getElem?_iff_mem, hnone]
          simp
      | literal t => cases hsegment
      | function f => cases hsegment
      | image path => cases hsegment
    · rcases ih hrest with ⟨q, hq, hsays⟩ | ⟨q, hq, hsays⟩
      · exact .inl ⟨q, List.mem_cons_of_mem p hq, hsays⟩
      · exact .inr ⟨q, List.mem_cons_of_mem p hq, hsays⟩
    · cases hdone

/-- A text line is refused for a marker or for a variable. -/
theorem Line.eq_of_compile_eq_error {globals : Variables} {speaker raw : Text} {cause : Cause}
    (h : Line.compile globals speaker raw = .error cause) :
    cause = .unterminatedMarker ∨ (∃ inner, cause = .malformedMarker inner) ∨
      ∃ name, cause = .unresolvedVariable name := by
  rw [Line.compile_eq_map] at h
  cases hs : Stretch.ofText globals raw with
  | ok s => rw [hs] at h; cases h
  | error e =>
    rw [hs] at h
    cases h
    rcases Stretch.eq_of_ofPieces_eq_error hs with ⟨p, hp, hsays⟩ | ⟨p, -, name, -, -, rfl⟩
    · rcases Piece.eq_of_meaning_eq_error hp hsays with rfl | ⟨inner, rfl⟩
      · exact .inl rfl
      · exact .inr (.inl ⟨inner, rfl⟩)
    · exact .inr (.inr ⟨name, rfl⟩)

/-! ### Steps of the compiler -/

/-- The line that is reported is at fault by itself, or because of the lines above
    it in its conversation. -/
def Cause.isOwn : Cause → Bool
  | .duplicateConversation _ | .emptyConversation _ | .invalidOffset .. => false
  | _ => true

namespace Compilation

/-- The open conversation has no text yet, and this is the refusal of closing
    it. -/
def IsHollow (s : Compilation) (e : CompileError) : Prop :=
  ∃ d, s.draft = some d ∧ d.conversation.lines = [] ∧
    e = ⟨d.headerLine, .emptyConversation d.conversation.name⟩

/-- What an item is refused with, after what has been read. -/
inductive Refuses (globals : Variables) (s : Compilation) : Item → CompileError → Prop
  /-- The line says nothing. -/
  | unreadable {line : Nat} {cause : Cause} :
      Refuses globals s ⟨line, .error cause⟩ ⟨line, cause⟩
  /-- A header closes a conversation without a text. -/
  | hollow {line : Nat} {name : Text} {e : CompileError} (h : s.IsHollow e) :
      Refuses globals s ⟨line, .ok (.header name)⟩ e
  /-- A header repeats a name. -/
  | repeated {line : Nat} {name : Text} {closed : List Conversation}
      (hclosed : s.close = .ok closed) (h : ∃ c ∈ closed, c.name = name) :
      Refuses globals s ⟨line, .ok (.header name)⟩ ⟨line, .duplicateConversation name⟩
  /-- There was no header yet. -/
  | headless {line : Nat} {t : Token} (ht : ∀ name, t ≠ .header name) (h : s.draft = none) :
      Refuses globals s ⟨line, .ok t⟩ ⟨line, .missingHeader⟩
  /-- The text does not compile. -/
  | text {line : Nat} {raw : Text} {d : Draft} {cause : Cause} (hd : s.draft = some d)
      (h : Line.compile globals d.speaker raw = .error cause) :
      Refuses globals s ⟨line, .ok (.text raw)⟩ ⟨line, cause⟩
  /-- The choice stands above the first text. -/
  | early {line : Nat} {label target : Text} {d : Draft} (hd : s.draft = some d)
      (h : d.conversation.lines = []) :
      Refuses globals s ⟨line, .ok (.choice label target)⟩ ⟨line, .choiceWithoutLine label⟩

variable {globals : Variables} {s : Compilation} {i : Item} {e : CompileError}

theorem isHollow_of_close (h : s.close = .error e) : s.IsHollow e := by
  obtain ⟨closed, draft⟩ := s
  cases draft with
  | none => cases h
  | some d =>
    simp only [close, Except.bind_eq_error_iff] at h
    rcases h with h | ⟨c, -, h⟩
    · rw [Draft.close] at h
      split at h
      · next hempty =>
        cases h
        exact ⟨d, rfl, List.isEmpty_iff.1 hempty, rfl⟩
      · cases h
    · cases h

theorem IsHollow.close_eq (h : s.IsHollow e) : s.close = .error e := by
  obtain ⟨closed, draft⟩ := s
  obtain ⟨d, hd, hlines, rfl⟩ := h
  cases hd
  simp only [close, Draft.close, hlines, List.isEmpty_nil, if_true]
  rfl

theorem current_eq_error (line : Nat) (h : s.current line = .error e) :
    s.draft = none ∧ e = ⟨line, .missingHeader⟩ := by
  unfold current at h
  split at h
  · next hnone =>
    cases h
    exact ⟨hnone, rfl⟩
  · cases h

theorem current_eq_ok {line : Nat} {d : Draft} (h : s.current line = .ok d) :
    s.draft = some d := by
  unfold current at h
  split at h
  · cases h
  · next hsome =>
    cases h
    exact hsome

/-- A step is only refused for one of the reasons. -/
theorem refuses_of_step (h : s.step globals i = .error e) : Refuses globals s i e := by
  obtain ⟨line, token⟩ := i
  cases token with
  | error cause =>
    cases h
    exact .unreadable
  | ok t =>
    have hread : s.read globals line t = .error e := h
    cases t with
    | header name =>
      simp only [read, Except.bind_eq_error_iff] at hread
      rcases hread with hclose | ⟨closed, hclosed, hname⟩
      · exact .hollow (isHollow_of_close hclose)
      · split at hname
        · next hfound =>
          cases hname
          exact .repeated hclosed (Conversation.find?_isSome_iff.1 hfound)
        · cases hname
    | speaker name =>
      simp only [read, Except.bind_eq_error_iff] at hread
      rcases hread with hnone | ⟨d, -, hdone⟩
      · obtain ⟨hdraft, rfl⟩ := current_eq_error line hnone
        exact .headless (by simp) hdraft
      · cases hdone
    | text raw =>
      simp only [read, Except.bind_eq_error_iff] at hread
      rcases hread with hnone | ⟨d, hd, hline | ⟨l, -, hdone⟩⟩
      · obtain ⟨hdraft, rfl⟩ := current_eq_error line hnone
        exact .headless (by simp) hdraft
      · cases hl : Line.compile globals d.speaker raw with
        | ok l => rw [hl] at hline; cases hline
        | error cause =>
          rw [hl] at hline
          cases hline
          exact .text (current_eq_ok hd) hl
      · cases hdone
    | choice label target =>
      simp only [read, Except.bind_eq_error_iff] at hread
      rcases hread with hnone | ⟨d, hd, hplace⟩
      · obtain ⟨hdraft, rfl⟩ := current_eq_error line hnone
        exact .headless (by simp) hdraft
      · split at hplace
        · next hearly =>
          cases hplace
          refine .early (current_eq_ok hd) ?_
          unfold Draft.addChoice? at hearly
          split at hearly
          · next hlength => exact List.length_eq_zero_iff.1 hlength
          · cases hearly
        · cases hplace

/-- A line of a source is refused because the conversation before it is empty, or
    for the name of its header, or for a fault of its own. -/
theorem Refuses.reason (h : Refuses globals s i e) {source : Text} (hi : i ∈ Item.ofSource source) :
    s.IsHollow e ∨
      (∃ closed name, s.close = .ok closed ∧ e = ⟨i.line, .duplicateConversation name⟩) ∨
      e.line = i.line ∧ e.cause.isOwn = true := by
  cases h with
  | @unreadable line cause =>
    obtain ⟨l, -, hline⟩ := List.mem_map.1 hi
    have htoken : Token.ofLine l.text = .error cause := congrArg Item.token hline
    refine .inr (.inr ⟨rfl, ?_⟩)
    rcases Token.eq_of_ofLine_eq_error htoken with rfl | rfl
    · rfl
    · rfl
  | hollow hs => exact .inl hs
  | repeated hclosed hname => exact .inr (.inl ⟨_, _, hclosed, rfl⟩)
  | headless ht hs => exact .inr (.inr ⟨rfl, rfl⟩)
  | text hd hline =>
    refine .inr (.inr ⟨rfl, ?_⟩)
    rcases Line.eq_of_compile_eq_error hline with rfl | ⟨inner, rfl⟩ | ⟨name, rfl⟩
    · rfl
    · rfl
    · rfl
  | early hd hs => exact .inr (.inr ⟨rfl, rfl⟩)

end Compilation

/-- A script is refused for one of its items, after those before it were read, or
    at its end for a conversation without a text. -/
theorem compileItems_eq_error {globals : Variables} {items : List Item} {e : CompileError}
    (h : compileItems globals items = .error e) :
    (∃ before i after s, items = before ++ i :: after ∧
      before.foldlM (Compilation.step globals) .empty = .ok s ∧
      Compilation.Refuses globals s i e) ∨
    ∃ s, items.foldlM (Compilation.step globals) .empty = .ok s ∧ s.IsHollow e := by
  rw [compileItems, Except.bind_eq_error_iff] at h
  rcases h with hread | ⟨s, hs, hclose⟩
  · obtain ⟨before, i, after, s, hitems, hs, hstep⟩ := exists_of_foldlM_eq_error hread
    exact .inl ⟨before, i, after, s, hitems, hs, Compilation.refuses_of_step hstep⟩
  · exact .inr ⟨s, hs, Compilation.isHollow_of_close hclose⟩

end Dialogue
