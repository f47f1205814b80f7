import Mathlib.Data.List.Forall2
import Dialogue.Proofs.TextLine

/-! # Compilations that go alike

    Two compilations are followed side by side. The scripts say the same, item by
    item, though maybe on other lines, and they may be compiled under different
    variables. As long as their text lines are refused alike or compile to related
    lines, the whole scripts are refused alike or compile to conversations that
    differ in their lines only.

    Which lines of a script count as the same (`L`) and which compiled lines are
    related (`R`) is left open. One step of the compiler keeps the relation
    between what has been read on either side (`Compilation.Alike.step`), and so
    does reading the whole script (`alike_compileItems`).
-/

namespace Dialogue

/-! ### Computations -/

/-- Both computations are refused, with related refusals, or both succeed, with
    related results. -/
inductive Except.Alike {ε ε' α α' : Type} (E : ε → ε' → Prop) (R : α → α' → Prop) :
    Except ε α → Except ε' α' → Prop
  | error {e : ε} {e' : ε'} (h : E e e') : Alike E R (.error e) (.error e')
  | ok {a : α} {a' : α'} (h : R a a') : Alike E R (.ok a) (.ok a')

namespace Except.Alike

variable {ε ε' α α' β β' : Type} {E : ε → ε' → Prop} {R : α → α' → Prop} {S : β → β' → Prop}

theorem bind {x : Except ε α} {x' : Except ε' α'} {f : α → Except ε β} {f' : α' → Except ε' β'}
    (hx : Alike E R x x') (hf : ∀ a a', R a a' → Alike E S (f a) (f' a')) :
    Alike E S (x >>= f) (x' >>= f') := by
  cases hx with
  | error h => exact .error h
  | ok h => exact hf _ _ h

theorem map {x : Except ε α} {x' : Except ε' α'} {f : α → β} {f' : α' → β'} (hx : Alike E R x x')
    (hf : ∀ a a', R a a' → S (f a) (f' a')) : Alike E S (x.map f) (x'.map f') := by
  cases hx with
  | error h => exact .error h
  | ok h => exact .ok (hf _ _ h)

theorem mapError {δ δ' : Type} {D : δ → δ' → Prop} {x : Except ε α} {x' : Except ε' α'}
    {f : ε → δ} {f' : ε' → δ'} (hx : Alike E R x x') (hf : ∀ e e', E e e' → D (f e) (f' e')) :
    Alike D R (x.mapError f) (x'.mapError f') := by
  cases hx with
  | error h => exact .error (hf _ _ h)
  | ok h => exact .ok h

theorem imp {E' : ε → ε' → Prop} {R' : α → α' → Prop} {x : Except ε α} {x' : Except ε' α'}
    (hx : Alike E R x x') (hE : ∀ e e', E e e' → E' e e') (hR : ∀ a a', R a a' → R' a a') :
    Alike E' R' x x' := by
  cases hx with
  | error h => exact .error (hE _ _ h)
  | ok h => exact .ok (hR _ _ h)

theorem eq {x x' : Except ε α} (hx : Alike Eq Eq x x') : x = x' := by
  cases hx with
  | error h => rw [h]
  | ok h => rw [h]

theorem refl {E : ε → ε → Prop} {R : α → α → Prop} (x : Except ε α) (hE : ∀ e, E e e)
    (hR : ∀ a, R a a) : Alike E R x x := by
  cases x with
  | error e => exact .error (hE e)
  | ok a => exact .ok (hR a)

/-- Steps that go alike, one after the other, go alike as a whole. -/
theorem foldlM {I : β → β' → Prop} {step : α → β → Except ε α} {step' : α' → β' → Except ε' α'}
    (hstep : ∀ a a' b b', R a a' → I b b' → Alike E R (step a b) (step' a' b'))
    {bs : List β} {bs' : List β'} (hbs : List.Forall₂ I bs bs') {a : α} {a' : α'} (ha : R a a') :
    Alike E R (bs.foldlM step a) (bs'.foldlM step' a') := by
  induction hbs generalizing a a' with
  | nil => exact .ok ha
  | cons hb _ ih =>
    rw [List.foldlM_cons, List.foldlM_cons]
    exact (hstep _ _ _ _ ha hb).bind fun _ _ hnext => ih hnext

end Except.Alike

/-! ### What is compared -/

/-- The same cause, on lines that count as the same. -/
structure CompileError.Alike (L : Nat → Nat → Prop) (e e' : CompileError) : Prop where
  line : L e.line e'.line
  cause : e.cause = e'.cause

/-- The same token or refusal, on lines that count as the same. -/
structure Item.Alike (L : Nat → Nat → Prop) (i i' : Item) : Prop where
  line : L i.line i'.line
  token : i.token = i'.token

/-- Conversations that differ in their lines only, which are related. -/
structure Conversation.Alike (R : Line → Line → Prop) (c c' : Conversation) : Prop where
  name : c.name = c'.name
  lines : List.Forall₂ R c.lines c'.lines
  choices : c.choices = c'.choices

/-- Open conversations that differ in their lines only. -/
structure Draft.Alike (L : Nat → Nat → Prop) (R : Line → Line → Prop) (d d' : Draft) : Prop where
  headerLine : L d.headerLine d'.headerLine
  conversation : d.conversation.Alike R d'.conversation
  speaker : d.speaker = d'.speaker

/-- What has been read so far differs in compiled lines only. -/
structure Compilation.Alike (L : Nat → Nat → Prop) (R : Line → Line → Prop)
    (s s' : Compilation) : Prop where
  closed : List.Forall₂ (Conversation.Alike R) s.closed s'.closed
  draft : Option.Rel (Draft.Alike L R) s.draft s'.draft

/-- The text compiles alike under both variables, whoever speaks it. -/
def Text.CompilesAlike (R : Line → Line → Prop) (g g' : Variables) (raw : Text) : Prop :=
  ∀ speaker, Except.Alike Eq R (Line.compile g speaker raw) (Line.compile g' speaker raw)

variable {L : Nat → Nat → Prop} {R : Line → Line → Prop} {g g' : Variables}

theorem Conversation.Alike.eq {c c' : Conversation} (h : c.Alike Eq c') : c = c' := by
  obtain ⟨name, lines, choices⟩ := c
  obtain ⟨name', lines', choices'⟩ := c'
  obtain ⟨rfl, hlines, rfl⟩ := h
  rw [List.forall₂_eq_eq_eq] at hlines
  cases hlines
  rfl

theorem Conversation.forall₂_alike_eq_iff {cs cs' : List Conversation} :
    List.Forall₂ (Conversation.Alike Eq) cs cs' ↔ cs = cs' := by
  have hiff : Conversation.Alike Eq = Eq := by
    funext c c'
    apply propext
    constructor
    · exact Conversation.Alike.eq
    · intro h
      rw [h]
      exact ⟨rfl, List.forall₂_same.2 fun _ _ => rfl, rfl⟩
  rw [hiff, List.forall₂_eq_eq_eq]

/-- Names are found in one set where they are found in the other. -/
theorem Conversation.isSome_find?_of_alike {cs cs' : List Conversation}
    (h : List.Forall₂ (Conversation.Alike R) cs cs') (name : Text) :
    (find? cs name).isSome = (find? cs' name).isSome := by
  induction h with
  | nil => rfl
  | @cons c c' cs cs' hc _ ih =>
    rw [find?, find?, List.find?_cons, List.find?_cons, hc.name]
    cases hname : c'.name == name with
    | true => rfl
    | false => exact ih

/-! ### Steps -/

theorem isEmpty_eq_of_forall₂ {α β : Type} {P : α → β → Prop} {as : List α} {bs : List β}
    (h : List.Forall₂ P as bs) : as.isEmpty = bs.isEmpty := by
  cases h <;> rfl

theorem Draft.Alike.close {d d' : Draft} (h : d.Alike L R d') :
    Except.Alike (CompileError.Alike L) (Conversation.Alike R) d.close d'.close := by
  rw [Draft.close, Draft.close, isEmpty_eq_of_forall₂ h.conversation.lines]
  split
  · exact .error ⟨h.headerLine, by rw [h.conversation.name]⟩
  · exact .ok h.conversation

namespace Compilation.Alike

variable {s s' : Compilation}

theorem close (h : s.Alike L R s') :
    Except.Alike (CompileError.Alike L) (List.Forall₂ (Conversation.Alike R))
      s.close s'.close := by
  obtain ⟨closed, draft⟩ := s
  obtain ⟨closed', draft'⟩ := s'
  obtain ⟨hclosed, hdraft⟩ := h
  cases hdraft with
  | none => exact .ok hclosed
  | some hd =>
    refine hd.close.bind ?_
    intro c c' hc
    exact .ok (List.rel_append hclosed (.cons hc .nil))

theorem current (h : s.Alike L R s') {line line' : Nat} (hline : L line line') :
    Except.Alike (CompileError.Alike L) (Draft.Alike L R) (s.current line) (s'.current line') := by
  obtain ⟨closed, draft⟩ := s
  obtain ⟨closed', draft'⟩ := s'
  obtain ⟨-, hdraft⟩ := h
  cases hdraft with
  | none => exact .error ⟨hline, rfl⟩
  | some hd => exact .ok hd

/-- Reading the same keeps what has been read alike. -/
theorem read (h : s.Alike L R s') {line line' : Nat} (hline : L line line') {t : Token}
    (ht : ∀ raw, t = .text raw → raw.CompilesAlike R g g') :
    Except.Alike (CompileError.Alike L) (Compilation.Alike L R) (s.read g line t)
      (s'.read g' line' t) := by
  cases t with
  | header name =>
    refine h.close.bind ?_
    intro closed closed' hclosed
    -- The header is refused on both sides or on none, as the names are the same.
    rw [Conversation.isSome_find?_of_alike hclosed name]
    split
    · exact .error ⟨hline, rfl⟩
    · exact .ok ⟨hclosed, .some ⟨hline, ⟨rfl, .nil, rfl⟩, rfl⟩⟩
  | speaker name =>
    refine (h.current hline).bind ?_
    intro d d' hd
    exact .ok ⟨h.closed, .some ⟨hd.headerLine, hd.conversation, rfl⟩⟩
  | text raw =>
    refine (h.current hline).bind ?_
    intro d d' hd
    have hcompile := ht raw rfl d.speaker
    rw [hd.speaker] at hcompile ⊢
    refine (hcompile.mapError ?_).bind ?_
    · intro cause cause' hcause
      exact ⟨hline, hcause⟩
    · intro l l' hl
      have hlines := List.rel_append hd.conversation.lines (.cons hl .nil)
      exact .ok ⟨h.closed, .some
        ⟨hd.headerLine, ⟨hd.conversation.name, hlines, hd.conversation.choices⟩, hd.speaker⟩⟩
  | choice label target =>
    refine (h.current hline).bind ?_
    intro d d' hd
    -- The choice follows a line with the same number.
    have hlength := hd.conversation.lines.length_eq
    simp only [Draft.addChoice?, hlength]
    cases d'.conversation.lines.length with
    | zero => exact .error ⟨hline, rfl⟩
    | succ n =>
      have hchoices : d.conversation.choices ++ [((⟨label, target⟩ : Choice), n)] =
          d'.conversation.choices ++ [(⟨label, target⟩, n)] := by
        rw [hd.conversation.choices]
      exact .ok ⟨h.closed, .some
        ⟨hd.headerLine, ⟨hd.conversation.name, hd.conversation.lines, hchoices⟩, hd.speaker⟩⟩

theorem step (h : s.Alike L R s') {i i' : Item} (hi : i.Alike L i')
    (ht : ∀ raw, i.token = .ok (.text raw) → raw.CompilesAlike R g g') :
    Except.Alike (CompileError.Alike L) (Compilation.Alike L R) (s.step g i) (s'.step g' i') := by
  obtain ⟨line, token⟩ := i
  obtain ⟨line', token'⟩ := i'
  obtain ⟨hline, rfl⟩ := hi
  cases token with
  | error cause => exact .error ⟨hline, rfl⟩
  | ok t => exact h.read hline fun raw hraw => ht raw (congrArg Except.ok hraw)

end Compilation.Alike

/-! ### Whole scripts -/

/-- Reading on from what is alike, and closing what is open at the end, is refused
    alike or leads to conversations that differ in their lines only. -/
theorem Compilation.Alike.readOn {s s' : Compilation} (hs : s.Alike L R s') {items items' : List Item}
    (hitems : List.Forall₂ (fun i i' => i.Alike L i' ∧
      ∀ raw, i.token = .ok (.text raw) → raw.CompilesAlike R g g') items items') :
    Except.Alike (CompileError.Alike L) (List.Forall₂ (Conversation.Alike R))
      (items.foldlM (Compilation.step g) s >>= Compilation.close)
      (items'.foldlM (Compilation.step g') s' >>= Compilation.close) := by
  have hread : Except.Alike (CompileError.Alike L) (Compilation.Alike L R)
      (items.foldlM (Compilation.step g) s) (items'.foldlM (Compilation.step g') s') :=
    .foldlM (fun _ _ _ _ hs hi => hs.step hi.1 hi.2) hitems hs
  exact hread.bind fun _ _ hlast => hlast.close

/-- Scripts that say the same, with texts that compile alike, are refused alike
    or compile to conversations that differ in their lines only. -/
theorem alike_compileItems {items items' : List Item}
    (hitems : List.Forall₂ (fun i i' => i.Alike L i' ∧
      ∀ raw, i.token = .ok (.text raw) → raw.CompilesAlike R g g') items items') :
    Except.Alike (CompileError.Alike L) (List.Forall₂ (Conversation.Alike R))
      (compileItems g items) (compileItems g' items') := by
  have hempty : Compilation.empty.Alike L R Compilation.empty := ⟨.nil, .none⟩
  exact hempty.readOn hitems

end Dialogue
