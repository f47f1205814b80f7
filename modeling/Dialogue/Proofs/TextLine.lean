import Dialogue.Script.Compile

/-! # Compiled text lines

    What it takes for a text line to compile, and what is known of the outcome.

    A line compiles as soon as every piece of it has a meaning and every
    variable in it has a value. The offsets of its functions need no further
    check: they never fall behind each other and never leave the text, since
    each is the length of the text in front of its marker. So compiling a line
    is putting its stretch together, and the check for misplaced invocations
    always passes.
-/

namespace Dialogue

/-! ### Sequencing -/

/-- A sequence of two computations succeeds where both do. -/
theorem Except.bind_eq_ok_iff {ε α β : Type} {x : Except ε α} {f : α → Except ε β} {b : β} :
    x >>= f = .ok b ↔ ∃ a, x = .ok a ∧ f a = .ok b := by
  cases x with
  | error e => simp [bind, Except.bind]
  | ok a => simp [bind, Except.bind]

/-- It is refused where the first of them is, or else where the second is. -/
theorem Except.bind_eq_error_iff {ε α β : Type} {x : Except ε α} {f : α → Except ε β} {e : ε} :
    x >>= f = .error e ↔ x = .error e ∨ ∃ a, x = .ok a ∧ f a = .error e := by
  cases x with
  | error e' => simp [bind, Except.bind]
  | ok a => simp [bind, Except.bind]

/-! ### Order of invocations -/

/-- Invocations in the order of their offsets, none of them beyond the text. -/
structure Stretch.Ordered (s : Stretch) : Prop where
  sorted : s.invocations.Pairwise fun i j => i.offset ≤ j.offset
  bounded : ∀ i ∈ s.invocations, i.offset ≤ s.text.length

namespace Stretch

theorem ordered_nil : nil.Ordered := ⟨.nil, by simp [nil]⟩

/-- The invocations of the second stretch move behind the text of the first,
    which no invocation of the first exceeds. -/
theorem Ordered.append {a b : Stretch} (ha : a.Ordered) (hb : b.Ordered) : (a ++ b).Ordered := by
  constructor
  · rw [invocations_append, List.pairwise_append]
    refine ⟨ha.sorted, ?_, ?_⟩
    · -- Shifting keeps the order among those of the second.
      rw [List.pairwise_map]
      refine hb.sorted.imp ?_
      intro i j hij
      simp only [Invocation.shift]
      omega
    · -- One of the first stands at most at the end of its text, where the second
      -- begins.
      intro i hi j hj
      obtain ⟨k, hk, rfl⟩ := List.mem_map.1 hj
      have hle := ha.bounded i hi
      simp only [Invocation.shift]
      omega
  · intro i hi
    rw [text_append, List.length_append]
    rcases List.mem_append.1 hi with hi | hi
    · have hle := ha.bounded i hi
      omega
    · obtain ⟨k, hk, rfl⟩ := List.mem_map.1 hi
      have hle := hb.bounded k hk
      simp only [Invocation.shift]
      omega

theorem ordered_ofSegment {globals : Variables} {s : Segment} {a : Stretch}
    (h : ofSegment globals s = .ok a) : a.Ordered := by
  cases s with
  | literal t => cases h; exact ⟨.nil, by simp⟩
  | reference name =>
    rw [ofSegment] at h
    split at h
    · cases h; exact ⟨.nil, by simp⟩
    · cases h
  | function name => cases h; exact ⟨List.pairwise_singleton _ _, by simp⟩
  | image path => cases h; exact ⟨.nil, by simp⟩

theorem ordered_ofPieces {globals : Variables} {ps : List Piece} {a : Stretch}
    (h : ofPieces globals ps = .ok a) : a.Ordered := by
  induction ps generalizing a with
  | nil => cases h; exact ordered_nil
  | cons p ps ih =>
    simp only [ofPieces, Except.bind_eq_ok_iff] at h
    obtain ⟨s, -, b, hb, c, hc, h⟩ := h
    cases h
    exact (ordered_ofSegment hb).append (ih hc)

end Stretch

/-- Ordered invocations are not misplaced. -/
theorem Content.misplaced?_eq_none {length least : Nat} {is : List Invocation}
    (hsorted : is.Pairwise fun i j => i.offset ≤ j.offset)
    (hleast : ∀ i ∈ is, least ≤ i.offset) (hbound : ∀ i ∈ is, i.offset ≤ length) :
    misplaced? length least is = none := by
  induction is generalizing least with
  | nil => rfl
  | cons i rest ih =>
    obtain ⟨hfirst, hrest⟩ := List.pairwise_cons.1 hsorted
    have hlow : ¬ i.offset < least := Nat.not_lt.2 (hleast i List.mem_cons_self)
    have hhigh : ¬ length < i.offset := Nat.not_lt.2 (hbound i List.mem_cons_self)
    have hstep : misplaced? length least (i :: rest) = misplaced? length i.offset rest := by
      simp [misplaced?, hlow, hhigh]
    rw [hstep]
    exact ih hrest hfirst fun j hj => hbound j (List.mem_cons_of_mem _ hj)

/-- The line that a stretch makes in the mouth of a speaker. -/
def Stretch.toLine (s : Stretch) (speaker : Text) : Line :=
  ⟨speaker, ⟨s.text, s.invocations⟩, s.image⟩

/-- A line compiles to its stretch. The check of the offsets always passes. -/
theorem Line.compile_eq_map (globals : Variables) (speaker raw : Text) :
    Line.compile globals speaker raw = (Stretch.ofText globals raw).map (·.toLine speaker) := by
  rw [Line.compile]
  cases hs : Stretch.ofText globals raw with
  | error e => rfl
  | ok s =>
    have ho := Stretch.ordered_ofPieces hs
    have hcheck : Content.misplaced? s.text.length 0 s.invocations = none :=
      Content.misplaced?_eq_none ho.sorted (fun _ _ => Nat.zero_le _) ho.bounded
    simp only [bind, Except.bind, hcheck]
    rfl

theorem Line.compile_eq_ok_iff {globals : Variables} {speaker raw : Text} {l : Line} :
    Line.compile globals speaker raw = .ok l ↔
      ∃ s, Stretch.ofText globals raw = .ok s ∧ l = s.toLine speaker := by
  rw [Line.compile_eq_map]
  cases Stretch.ofText globals raw with
  | error e => simp [Except.map]
  | ok s => simp [Except.map, eq_comm]

/-! ### Readable texts -/

/-- The variable that a segment refers to, if any, has a value. -/
def Segment.IsDefined (globals : Variables) (s : Segment) : Prop :=
  ∀ name, s = .reference name → name ∈ globals

/-- Every piece of the text has a meaning, and every variable that it refers to
    has a value. -/
def Text.IsReadable (globals : Variables) (raw : Text) : Prop :=
  ∀ p ∈ Piece.ofText raw, ∃ s, p.meaning = .ok s ∧ s.IsDefined globals

namespace Stretch

theorem exists_ofSegment_iff {globals : Variables} {s : Segment} :
    (∃ a, ofSegment globals s = .ok a) ↔ s.IsDefined globals := by
  cases s with
  | literal t => simp [ofSegment, Segment.IsDefined]
  | reference name =>
    have hmem : name ∈ globals ↔ globals[name]?.isSome = true := by
      rw [Std.ExtTreeMap.isSome_getElem?_iff_mem]
    cases h : globals[name]? with
    | none => simp [ofSegment, Segment.IsDefined, h, hmem]
    | some value => simp [ofSegment, Segment.IsDefined, h, hmem]
  | function name => simp [ofSegment, Segment.IsDefined]
  | image path => simp [ofSegment, Segment.IsDefined]

theorem exists_ofPieces_iff {globals : Variables} {ps : List Piece} :
    (∃ a, ofPieces globals ps = .ok a) ↔
      ∀ p ∈ ps, ∃ s, p.meaning = .ok s ∧ s.IsDefined globals := by
  induction ps with
  | nil => simp [ofPieces]
  | cons p ps ih =>
    rw [List.forall_mem_cons, ← ih]
    simp only [ofPieces, Except.bind_eq_ok_iff, ← exists_ofSegment_iff]
    constructor
    · intro h
      obtain ⟨_, s, hs, a, ha, b, hb, -⟩ := h
      exact ⟨⟨s, hs, a, ha⟩, b, hb⟩
    · intro h
      obtain ⟨⟨s, hs, a, ha⟩, b, hb⟩ := h
      exact ⟨a ++ b, s, hs, a, ha, b, hb, rfl⟩

end Stretch

/-- A text line compiles exactly where it is readable, whoever speaks it. -/
theorem Line.exists_compile_iff {globals : Variables} (speaker : Text) {raw : Text} :
    (∃ l, Line.compile globals speaker raw = .ok l) ↔ raw.IsReadable globals := by
  rw [Text.IsReadable, ← Stretch.exists_ofPieces_iff]
  simp only [Line.compile_eq_ok_iff]
  constructor
  · intro h
    obtain ⟨_, s, hs, -⟩ := h
    exact ⟨s, hs⟩
  · intro h
    obtain ⟨s, hs⟩ := h
    exact ⟨_, s, hs, rfl⟩

end Dialogue
