import Dialogue.Text.Basic

/-! # Cutting a text at a mark

    Taking a fixed beginning or ending off a text, and cutting a text in two at
    the first or at the last place where a mark stands. Each operation puts
    nothing in and loses nothing but the mark.
-/

namespace Dialogue.Text

/-! ### At the ends -/

/-- What follows `start`, if the text begins with it. -/
def stripStart? : (start t : Text) → Option Text
  | [], t => some t
  | _ :: _, [] => none
  | a :: start, c :: t => if a = c then stripStart? start t else none

/-- What precedes `ending`, if the text ends with it. -/
def stripEnd? (ending t : Text) : Option Text :=
  (stripStart? ending.reverse t.reverse).map List.reverse

theorem stripStart?_eq_some_iff {start t rest : Text} :
    stripStart? start t = some rest ↔ start ++ rest = t := by
  fun_induction stripStart? start t with
  | case1 t => simp [eq_comm]
  | case2 => simp
  | case3 a start t ih => simpa using ih
  | case4 a start c t h => simp [h]

theorem stripEnd?_eq_some_iff {ending t rest : Text} :
    stripEnd? ending t = some rest ↔ rest ++ ending = t := by
  simp only [stripEnd?, Option.map_eq_some_iff]
  constructor
  · rintro ⟨r, h, rfl⟩
    have := stripStart?_eq_some_iff.1 h
    rw [← List.reverse_inj, ← this]
    simp
  · rintro rfl
    exact ⟨rest.reverse, stripStart?_eq_some_iff.2 (by simp), by simp⟩

theorem suffix_of_stripStart? {start t rest : Text} (h : stripStart? start t = some rest) :
    rest <:+ t :=
  ⟨start, stripStart?_eq_some_iff.1 h⟩

theorem prefix_of_stripEnd? {ending t rest : Text} (h : stripEnd? ending t = some rest) :
    rest <+: t :=
  ⟨ending, stripEnd?_eq_some_iff.1 h⟩

@[simp] theorem stripStart?_append (start rest : Text) :
    stripStart? start (start ++ rest) = some rest :=
  stripStart?_eq_some_iff.2 rfl

@[simp] theorem stripEnd?_append (rest ending : Text) :
    stripEnd? ending (rest ++ ending) = some rest :=
  stripEnd?_eq_some_iff.2 rfl

/-! ### In the middle -/

/-- What precedes and what follows the first place where `mark` stands. -/
def splitFirst? (mark : Text) : Text → Option (Text × Text)
  | [] => (stripStart? mark []).map fun after => ([], after)
  | c :: rest =>
    match stripStart? mark (c :: rest) with
    | some after => some ([], after)
    | none => (splitFirst? mark rest).map fun parts => (c :: parts.1, parts.2)

/-- What precedes and what follows the last place where `mark` stands. -/
def splitLast? (mark : Text) : Text → Option (Text × Text)
  | [] => (stripStart? mark []).map fun after => ([], after)
  | c :: rest =>
    match splitLast? mark rest with
    | some parts => some (c :: parts.1, parts.2)
    | none => (stripStart? mark (c :: rest)).map fun after => ([], after)

/-- Cutting at the first mark loses nothing but the mark. -/
theorem eq_of_splitFirst? {mark t before after : Text}
    (h : splitFirst? mark t = some (before, after)) : t = before ++ mark ++ after := by
  induction t generalizing before with
  | nil =>
    simp only [splitFirst?, Option.map_eq_some_iff, Prod.mk.injEq] at h
    obtain ⟨_, h, rfl, rfl⟩ := h
    simpa using (stripStart?_eq_some_iff.1 h).symm
  | cons c rest ih =>
    rw [splitFirst?] at h
    split at h
    · next h' =>
      cases h
      simpa using (stripStart?_eq_some_iff.1 h').symm
    · simp only [Option.map_eq_some_iff, Prod.mk.injEq] at h
      obtain ⟨parts, h, rfl, rfl⟩ := h
      simpa using ih h

/-- Cutting at the last mark loses nothing but the mark. -/
theorem eq_of_splitLast? {mark t before after : Text}
    (h : splitLast? mark t = some (before, after)) : t = before ++ mark ++ after := by
  induction t generalizing before with
  | nil =>
    simp only [splitLast?, Option.map_eq_some_iff, Prod.mk.injEq] at h
    obtain ⟨_, h, rfl, rfl⟩ := h
    simpa using (stripStart?_eq_some_iff.1 h).symm
  | cons c rest ih =>
    rw [splitLast?] at h
    split at h
    · next parts h' =>
      simp only [Option.some.injEq, Prod.mk.injEq] at h
      obtain ⟨rfl, rfl⟩ := h
      simpa using ih h'
    · simp only [Option.map_eq_some_iff, Prod.mk.injEq] at h
      obtain ⟨_, h, rfl, rfl⟩ := h
      simpa using (stripStart?_eq_some_iff.1 h).symm

/-! ### No mark is passed over -/

theorem stripStart?_eq_none_iff {start t : Text} :
    stripStart? start t = none ↔ ¬ start <+: t := by
  rw [Option.eq_none_iff_forall_ne_some]
  constructor
  · intro h hstart
    obtain ⟨rest, hrest⟩ := hstart
    exact h rest (stripStart?_eq_some_iff.2 hrest)
  · intro h rest hrest
    exact h ⟨rest, stripStart?_eq_some_iff.1 hrest⟩

/-- No mark comes about before the end of the first that was found. -/
theorem not_infix_append_of_splitFirst? {mark t before after : Text} (hmark : mark ≠ [])
    (h : splitFirst? mark t = some (before, after)) : ¬ mark <:+: before ++ mark.dropLast := by
  induction t generalizing before with
  | nil =>
    simp only [splitFirst?, Option.map_eq_some_iff, Prod.mk.injEq] at h
    obtain ⟨_, hstrip, -, -⟩ := h
    obtain ⟨hnil, -⟩ := List.append_eq_nil_iff.1 (stripStart?_eq_some_iff.1 hstrip)
    exact absurd hnil hmark
  | cons c rest ih =>
    rw [splitFirst?] at h
    split at h
    · cases h
      intro hpart
      have hlength := hpart.length_le
      have hpos := List.length_pos_iff.2 hmark
      rw [List.nil_append, List.length_dropLast] at hlength
      omega
    · next hnone =>
      simp only [Option.map_eq_some_iff, Prod.mk.injEq] at h
      obtain ⟨⟨early, late⟩, hrest, rfl, rfl⟩ := h
      rw [List.cons_append, List.infix_cons_iff, not_or]
      refine ⟨?_, ih hrest⟩
      -- In front of the first character it would have been found there.
      intro hbegin
      have hwithin : early ++ mark.dropLast <+: rest := by
        rw [eq_of_splitFirst? hrest, List.append_assoc]
        exact (List.prefix_append_right_inj early).2
          ((List.dropLast_prefix mark).trans (List.prefix_append mark late))
      have hwhole : c :: (early ++ mark.dropLast) <+: c :: rest := List.cons_prefix_cons.2 ⟨rfl, hwithin⟩
      exact stripStart?_eq_none_iff.1 hnone (hbegin.trans hwhole)

/-- A mark is found unless there is none. -/
theorem splitFirst?_eq_none_iff {mark t : Text} : splitFirst? mark t = none ↔ ¬ mark <:+: t := by
  induction t with
  | nil => simp [splitFirst?, stripStart?_eq_none_iff]
  | cons c rest ih =>
    rw [splitFirst?, List.infix_cons_iff, not_or, ← ih, ← stripStart?_eq_none_iff]
    split
    · next hfound => simp [hfound]
    · next hnone => simp [hnone]

/-- Where no mark comes about before the end of one, no other stands further in front. -/
theorem prefix_of_not_infix_append {mark before after early late : Text}
    (h : ¬ mark <:+: before ++ mark.dropLast)
    (heq : before ++ mark ++ after = early ++ mark ++ late) : before <+: early := by
  have hbefore : before <+: before ++ mark ++ after := by
    rw [List.append_assoc]
    exact List.prefix_append _ _
  have hearly : early <+: before ++ mark ++ after := by
    rw [heq, List.append_assoc]
    exact List.prefix_append _ _
  by_cases hle : before.length ≤ early.length
  · exact List.prefix_of_prefix_length_le hbefore hearly hle
  · -- The other would end in front of the last character of the one.
    have hinit : before ++ mark.dropLast <+: before ++ mark ++ after :=
      ((List.prefix_append_right_inj before).2 (List.dropLast_prefix mark)).trans
        (List.prefix_append _ _)
    have hother : early ++ mark <+: before ++ mark ++ after := by
      rw [heq]
      exact List.prefix_append _ _
    have hlength : (early ++ mark).length ≤ (before ++ mark.dropLast).length := by
      rw [List.length_append, List.length_append, List.length_dropLast]
      omega
    have hwithin := List.prefix_of_prefix_length_le hother hinit hlength
    exact absurd ((List.suffix_append early mark).isInfix.trans hwithin.isInfix) h

/-- Where the last mark is not found, there is none. -/
theorem not_infix_of_splitLast?_eq_none {mark t : Text} (h : splitLast? mark t = none) :
    ¬ mark <:+: t := by
  induction t with
  | nil =>
    rw [splitLast?, Option.map_eq_none_iff, stripStart?_eq_none_iff] at h
    simpa using h
  | cons c rest ih =>
    rw [splitLast?] at h
    split at h
    · cases h
    · next hrest =>
      rw [Option.map_eq_none_iff, stripStart?_eq_none_iff] at h
      rw [List.infix_cons_iff, not_or]
      exact ⟨h, ih hrest⟩

/-- The mark does not stand behind the last place where it was found. -/
theorem not_infix_of_splitLast? {mark t before after : Text} (hmark : mark ≠ [])
    (h : splitLast? mark t = some (before, after)) : ¬ mark <:+: after := by
  induction t generalizing before with
  | nil =>
    simp only [splitLast?, Option.map_eq_some_iff, Prod.mk.injEq] at h
    obtain ⟨_, hstrip, rfl, rfl⟩ := h
    obtain ⟨hnil, -⟩ := List.append_eq_nil_iff.1 (stripStart?_eq_some_iff.1 hstrip)
    exact absurd hnil hmark
  | cons c rest ih =>
    rw [splitLast?] at h
    split at h
    · next parts hparts =>
      simp only [Option.some.injEq, Prod.mk.injEq] at h
      obtain ⟨-, rfl⟩ := h
      exact ih hparts
    · next hnone =>
      simp only [Option.map_eq_some_iff, Prod.mk.injEq] at h
      obtain ⟨_, hstrip, -, rfl⟩ := h
      -- What follows the mark is part of the rest, where no mark was found.
      obtain ⟨m, mark, rfl⟩ := List.exists_cons_of_ne_nil hmark
      have htail : mark ++ _ = rest := (List.cons.inj (stripStart?_eq_some_iff.1 hstrip)).2
      intro hpart
      exact not_infix_of_splitLast?_eq_none hnone (hpart.trans ⟨mark, [], by simpa using htail⟩)

/-! ### A mark that was put in -/

/-- A mark does not reach over a character that it does not hold. -/
theorem infix_or_infix_of_append_cons {mark before after : Text} {c : Char} (hc : c ∉ mark)
    (h : mark <:+: before ++ c :: after) : mark <:+: before ∨ mark <:+: after := by
  rcases List.infix_append_iff.1 h with h | h | ⟨early, late, rfl, hearly, hlate⟩
  · exact .inl h
  · rcases List.infix_cons_iff.1 h with h | h
    · rcases List.prefix_cons_iff.1 h with rfl | ⟨rest, rfl, -⟩
      · exact .inr (List.nil_infix)
      · exact absurd List.mem_cons_self hc
    · exact .inr h
  · -- What lies behind the character's place begins with the character, or is nothing.
    rcases List.prefix_cons_iff.1 hlate with rfl | ⟨rest, rfl, -⟩
    · rw [List.append_nil]
      exact .inl hearly.isInfix
    · exact absurd (List.mem_append_right early List.mem_cons_self) hc

/-- Cutting at the first mark finds the one that was put in, if none comes about
    before its end. -/
theorem splitFirst?_append {mark before : Text} (after : Text) (hmark : mark ≠ [])
    (h : ¬ mark <:+: before ++ mark.dropLast) :
    splitFirst? mark (before ++ (mark ++ after)) = some (before, after) := by
  induction before with
  | nil =>
    obtain ⟨m, rest, rfl⟩ := List.exists_cons_of_ne_nil hmark
    have hfound := stripStart?_append (m :: rest) after
    rw [List.nil_append, List.cons_append, splitFirst?]
    rw [List.cons_append] at hfound
    rw [hfound]
  | cons c before ih =>
    have hlater : ¬ mark <:+: before ++ mark.dropLast := by
      intro hpart
      exact h (hpart.trans (List.suffix_cons c _).isInfix)
    have hnone : stripStart? mark (c :: (before ++ (mark ++ after))) = none := by
      rw [stripStart?_eq_none_iff]
      intro hbegin
      -- A mark at the first character would end before the one that was put in does.
      have hwithin : c :: before ++ mark.dropLast <+: c :: (before ++ (mark ++ after)) := by
        refine ⟨mark.getLast hmark :: after, ?_⟩
        have hwhole := List.dropLast_concat_getLast hmark
        calc c :: before ++ mark.dropLast ++ mark.getLast hmark :: after
            = c :: (before ++ (mark.dropLast ++ [mark.getLast hmark] ++ after)) := by simp
          _ = c :: (before ++ (mark ++ after)) := by rw [hwhole]
      have hlength : mark.length ≤ (c :: before ++ mark.dropLast).length := by
        rw [List.length_append, List.length_cons, List.length_dropLast]
        omega
      exact h (List.prefix_of_prefix_length_le hbegin hwithin hlength).isInfix
    rw [List.cons_append, splitFirst?, hnone, ih hlater]
    rfl

theorem splitLast?_eq_none {mark t : Text} (h : ¬ mark <:+: t) : splitLast? mark t = none := by
  cases hsplit : splitLast? mark t with
  | none => rfl
  | some parts =>
    have hwhole : t = parts.1 ++ mark ++ parts.2 := eq_of_splitLast? hsplit
    exact absurd ⟨parts.1, parts.2, hwhole.symm⟩ h

/-- Cutting at the last mark finds the one that was put in, if none comes about
    behind its beginning. -/
theorem splitLast?_append {mark after : Text} (before : Text) (hmark : mark ≠ [])
    (h : ¬ mark <:+: mark.tail ++ after) :
    splitLast? mark (before ++ (mark ++ after)) = some (before, after) := by
  induction before with
  | nil =>
    obtain ⟨m, rest, rfl⟩ := List.exists_cons_of_ne_nil hmark
    have hnone : splitLast? (m :: rest) (rest ++ after) = none := splitLast?_eq_none h
    have hfound := stripStart?_append (m :: rest) after
    rw [List.cons_append] at hfound
    rw [List.nil_append, List.cons_append, splitLast?, hnone, hfound]
    rfl
  | cons c before ih => rw [List.cons_append, splitLast?, ih]

end Dialogue.Text
