import Dialogue.Text.Basic

/-! # Lines

    A line feed, and nothing else, separates two lines. A text with `n` line
    feeds has `n + 1` lines, the last of which may be empty.
-/

namespace Dialogue.Text

/-- The lines of a text, without their line feeds. -/
def lines : Text → List Text
  | [] => [[]]
  | c :: rest =>
    if c = '\n' then [] :: lines rest
    else (lines rest).modifyHead (c :: ·)

/-- The lines of a text, each with its number counted from one. -/
def numberedLines (t : Text) : List (Text × Nat) := t.lines.zipIdx 1

/-- The text with these lines. -/
def unlines (ls : List Text) : Text := ['\n'].intercalate ls

theorem lines_ne_nil (t : Text) : t.lines ≠ [] := by
  induction t with
  | nil => simp [lines]
  | cons c rest ih =>
    rw [lines]
    split
    · simp
    · obtain ⟨l, ls, h⟩ := List.exists_cons_of_ne_nil ih
      simp [h]

/-- A line feed between two texts separates their lines. -/
theorem lines_append_newline (s t : Text) :
    (s ++ '\n' :: t).lines = s.lines ++ t.lines := by
  induction s with
  | nil => simp [lines]
  | cons c rest ih =>
    rw [List.cons_append, lines, lines, ih]
    split
    · simp
    · obtain ⟨l, ls, h⟩ := List.exists_cons_of_ne_nil (lines_ne_nil rest)
      simp [h]

/-- There is one line more than there are line feeds. -/
theorem length_lines (t : Text) : t.lines.length = t.count '\n' + 1 := by
  induction t with
  | nil => rfl
  | cons c rest ih =>
    rw [lines]
    split
    · next h => simp [h, ih]
    · next h => simp [h, ih]

/-- No line holds a line feed. -/
theorem newline_not_mem_of_mem_lines {t l : Text} (h : l ∈ t.lines) : '\n' ∉ l := by
  induction t generalizing l with
  | nil => simp_all [lines]
  | cons c rest ih =>
    obtain ⟨m, ms, hm⟩ := List.exists_cons_of_ne_nil (lines_ne_nil rest)
    rw [lines] at h
    split at h
    · rcases List.mem_cons.1 h with rfl | h
      · simp
      · exact ih h
    · next hc =>
      simp only [hm, List.modifyHead_cons, List.mem_cons] at h ih
      rcases h with rfl | h
      · simp [Ne.symm hc, ih (.inl rfl)]
      · exact ih (.inr h)

/-! ### Putting lines together -/

theorem unlines_cons_cons (l m : Text) (ls : List Text) :
    unlines (l :: m :: ls) = l ++ '\n' :: unlines (m :: ls) := by
  simp [unlines, List.intercalate_cons_cons]

theorem lines_of_newline_not_mem {l : Text} (h : '\n' ∉ l) : l.lines = [l] := by
  induction l with
  | nil => rfl
  | cons c rest ih =>
    simp only [List.mem_cons, not_or] at h
    rw [lines, if_neg (Ne.symm h.1), ih h.2]
    rfl

/-- Lines without line feeds are found again. -/
theorem lines_unlines {ls : List Text} (hne : ls ≠ []) (h : ∀ l ∈ ls, '\n' ∉ l) :
    (unlines ls).lines = ls := by
  induction ls with
  | nil => exact absurd rfl hne
  | cons l ls ih =>
    cases ls with
    | nil => simpa [unlines] using lines_of_newline_not_mem (h l (by simp))
    | cons m ls =>
      rw [unlines_cons_cons, lines_append_newline, lines_of_newline_not_mem (h l (by simp)),
        ih (by simp) fun k hk => h k (List.mem_cons_of_mem _ hk)]
      rfl

end Dialogue.Text
