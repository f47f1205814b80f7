import Dialogue.Text.Basic

/-! # Blanks

    Blank characters are those with the Unicode property `White_Space`, all
    twenty-five of them. A zero-width space, a word joiner or a byte order mark
    is not blank. Trimming takes blanks away from the ends of a text and keeps
    those inside.
-/

namespace Dialogue.Text

/-- The code points with the property `White_Space`. -/
def isBlank (c : Char) : Bool :=
  let n := c.toNat
  (0x09 ≤ n && n ≤ 0x0D) || n == 0x20 || n == 0x85 || n == 0xA0 || n == 0x1680
    || (0x2000 ≤ n && n ≤ 0x200A) || n == 0x2028 || n == 0x2029 || n == 0x202F
    || n == 0x205F || n == 0x3000

/-- The text without the blanks it begins with. -/
def trimStart (t : Text) : Text := t.dropWhile isBlank

/-- The text without the blanks it ends with. -/
def trimEnd (t : Text) : Text := (t.reverse.dropWhile isBlank).reverse

/-- The text without the blanks at either end. -/
def trim (t : Text) : Text := t.trimStart.trimEnd

/-- A trimmed text neither begins nor ends with a blank. -/
def IsTrimmed (t : Text) : Prop :=
  (∀ c ∈ t.head?, isBlank c = false) ∧ (∀ c ∈ t.getLast?, isBlank c = false)

/-! ### What trimming does -/

theorem trimStart_eq_self {t : Text} (h : ∀ c ∈ t.head?, isBlank c = false) :
    t.trimStart = t := by
  cases t with
  | nil => rfl
  | cons c r => simp [trimStart, h c (by simp)]

theorem trimEnd_eq_self {t : Text} (h : ∀ c ∈ t.getLast?, isBlank c = false) :
    t.trimEnd = t := by
  have := trimStart_eq_self (t := t.reverse) (by simpa using h)
  simp only [trimStart] at this
  simp [trimEnd, this]

theorem head?_trimStart (t : Text) : ∀ c ∈ t.trimStart.head?, isBlank c = false := by
  intro c hc
  have := List.head?_dropWhile_not isBlank t
  simp only [trimStart, Option.mem_def] at hc
  rw [hc] at this
  simpa using this

theorem getLast?_trimEnd (t : Text) : ∀ c ∈ t.trimEnd.getLast?, isBlank c = false := by
  intro c hc
  exact head?_trimStart t.reverse c (by simpa [trimEnd, trimStart] using hc)

/-- A text is what stands before its trailing blanks, then those blanks. -/
theorem exists_eq_trimEnd_append (t : Text) :
    ∃ blanks : Text, t = t.trimEnd ++ blanks ∧ ∀ c ∈ blanks, isBlank c = true := by
  refine ⟨(t.reverse.takeWhile isBlank).reverse, ?_, fun c hc => ?_⟩
  · have := List.takeWhile_append_dropWhile (p := isBlank) (l := t.reverse)
    rw [trimEnd, ← List.reverse_append, this, List.reverse_reverse]
  · exact List.all_eq_true.1 List.all_takeWhile c (by simpa using hc)

/-- Trimming leaves a trimmed text. -/
theorem isTrimmed_trim (t : Text) : t.trim.IsTrimmed := by
  refine ⟨fun c hc => ?_, getLast?_trimEnd _⟩
  obtain ⟨blanks, h, -⟩ := exists_eq_trimEnd_append t.trimStart
  refine head?_trimStart t c ?_
  rw [h]
  cases h' : t.trimStart.trimEnd with
  | nil => simp [trim, h'] at hc
  | cons a r => simpa [trim, h'] using hc

/-- A trimmed text is left alone. -/
theorem IsTrimmed.trim_eq {t : Text} (h : t.IsTrimmed) : t.trim = t := by
  rw [trim, trimStart_eq_self h.1, trimEnd_eq_self h.2]

theorem isTrimmed_iff {t : Text} : t.IsTrimmed ↔ t.trim = t :=
  ⟨IsTrimmed.trim_eq, fun h => h ▸ isTrimmed_trim t⟩

instance (t : Text) : Decidable t.IsTrimmed := decidable_of_iff (t.trim = t) isTrimmed_iff.symm

/-! ### What trimming leaves -/

theorem suffix_trimStart (t : Text) : t.trimStart <:+ t := List.dropWhile_suffix isBlank

theorem prefix_trimEnd (t : Text) : t.trimEnd <+: t := by
  obtain ⟨blanks, h, -⟩ := exists_eq_trimEnd_append t
  exact ⟨blanks, h.symm⟩

/-- Trimming leaves a part of the text. -/
theorem infix_trim (t : Text) : t.trim <:+: t :=
  (prefix_trimEnd _).isInfix.trans (suffix_trimStart t).isInfix

/-! ### Texts that are put together -/

theorem head?_append_left {s : Text} (hs : s ≠ []) (t : Text) : (s ++ t).head? = s.head? := by
  obtain ⟨c, rest, rfl⟩ := List.exists_cons_of_ne_nil hs
  rfl

theorem getLast?_append_right {t : Text} (s : Text) (ht : t ≠ []) :
    (s ++ t).getLast? = t.getLast? := by
  rw [List.getLast?_append, List.getLast?_eq_some_getLast ht, Option.some_or]

theorem isTrimmed_append {s t : Text} (hs : s ≠ []) (ht : t ≠ [])
    (hfirst : ∀ c ∈ s.head?, isBlank c = false) (hlast : ∀ c ∈ t.getLast?, isBlank c = false) :
    (s ++ t).IsTrimmed := by
  constructor
  · rw [head?_append_left hs]
    exact hfirst
  · rw [getLast?_append_right s ht]
    exact hlast

/-- Blanks around a text are trimmed away. -/
theorem trim_append_blanks {left right : Text} (hleft : ∀ c ∈ left, isBlank c = true)
    (hright : ∀ c ∈ right, isBlank c = true) (t : Text) : trim (left ++ t ++ right) = t.trim := by
  have hend : ∀ u : Text, trimEnd (u ++ right) = u.trimEnd := by
    intro u
    rw [trimEnd, List.reverse_append, List.dropWhile_append_of_pos]
    · rfl
    · intro c hc
      exact hright c (List.mem_reverse.1 hc)
  rw [trim, trimStart, List.append_assoc, List.dropWhile_append_of_pos hleft, List.dropWhile_append]
  split
  · next hnone =>
    -- There are only blanks, which are all taken for leading ones.
    have hstart : t.trimStart = [] := List.isEmpty_iff.1 hnone
    have hnil : right.dropWhile isBlank = [] := by
      have happend : (right ++ []).dropWhile isBlank = [].dropWhile isBlank :=
        List.dropWhile_append_of_pos hright
      rwa [List.append_nil] at happend
    rw [trim, hstart, hnil]
  · exact hend t.trimStart

/-- A text is what trimming leaves of it, between blanks. -/
theorem exists_eq_append_trim (t : Text) : ∃ left right : Text, t = left ++ t.trim ++ right ∧
    (∀ c ∈ left, isBlank c = true) ∧ ∀ c ∈ right, isBlank c = true := by
  obtain ⟨right, hright, hblank⟩ := exists_eq_trimEnd_append t.trimStart
  refine ⟨t.takeWhile isBlank, right, ?_, ?_, hblank⟩
  · rw [List.append_assoc, trim, ← hright, trimStart, List.takeWhile_append_dropWhile]
  · intro c hc
    exact List.all_eq_true.1 List.all_takeWhile c hc

/-- A blank in front of a text is trimmed away. -/
theorem trim_cons_of_isBlank {c : Char} (hc : isBlank c = true) (t : Text) :
    trim (c :: t) = t.trim := by
  rw [trim, trimStart, List.dropWhile_cons_of_pos hc]
  rfl

/-- A blank behind a trimmed text is trimmed away. -/
theorem IsTrimmed.trim_concat {t : Text} (h : t.IsTrimmed) {c : Char} (hc : isBlank c = true) :
    trim (t ++ [c]) = t := by
  have hblank : ∀ a ∈ [c], isBlank a = true := by
    intro a ha
    rw [List.mem_singleton.1 ha]
    exact hc
  exact (trim_append_blanks (List.forall_mem_nil _) hblank t).trans h.trim_eq

/-- No blank is part of an identifier. -/
theorem isBlank_eq_false_of_isIdentifierChar {c : Char} (h : isIdentifierChar c = true) :
    isBlank c = false := by
  have hrange : 0x30 ≤ c.toNat ∧ c.toNat ≤ 0x7A := by
    change ((decide (c.val ≥ 'A'.val ∧ c.val ≤ 'Z'.val) ||
      (decide (c.val ≥ 'a'.val) && decide (c.val ≤ 'z'.val))) ||
      (decide (c.val ≥ '0'.val) && decide (c.val ≤ '9'.val)) || c == '_') = true at h
    simp only [Bool.or_eq_true, Bool.and_eq_true, decide_eq_true_eq, beq_iff_eq, ge_iff_le,
      UInt32.le_iff_toNat_le] at h
    show 0x30 ≤ c.val.toNat ∧ c.val.toNat ≤ 0x7A
    rcases h with ((h | h) | h) | rfl
    · have hA : 'A'.val.toNat = 0x41 := rfl
      have hZ : 'Z'.val.toNat = 0x5A := rfl
      omega
    · have ha : 'a'.val.toNat = 0x61 := rfl
      have hz : 'z'.val.toNat = 0x7A := rfl
      omega
    · have h0 : '0'.val.toNat = 0x30 := rfl
      have h9 : '9'.val.toNat = 0x39 := rfl
      omega
    · decide
  simp only [isBlank, Bool.or_eq_false_iff, Bool.and_eq_false_iff, decide_eq_false_iff_not,
    beq_eq_false_iff_ne]
  omega

end Dialogue.Text
