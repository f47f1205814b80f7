import Dialogue.Script.Source

/-! # Where the items of a source stand

    Every item keeps the number of its physical line, counted with the blank lines
    and the comments. So the numbers grow from item to item and stay within the
    lines that the source has.

    A source that is cut behind one of its lines loses the items with higher
    numbers and no others (`ofSource_takeLines`). A source that is put below
    another one says what it said before, under numbers that are moved by the lines
    above it (`ofSource_append_newline`).
-/

namespace Dialogue

/-- The first `n` lines of a text. -/
def Text.takeLines (n : Nat) (t : Text) : Text := unlines (t.lines.take n)

namespace Item

/-- What these lines say, if the first of them has number `n`. -/
def ofLines (n : Nat) (ls : List Text) : List Item :=
  (SourceLine.significant (ls.zipIdx n)).map ofSourceLine

/-- The item `d` lines further down. -/
def shift (d : Nat) (i : Item) : Item := { i with line := i.line + d }

theorem ofSource_eq_ofLines (source : Text) : ofSource source = ofLines 1 source.lines := rfl

theorem ofLines_append (n : Nat) (ls ms : List Text) :
    ofLines n (ls ++ ms) = ofLines n ls ++ ofLines (n + ls.length) ms := by
  simp only [ofLines, SourceLine.significant, List.zipIdx_append, List.map_append,
    List.filter_append]

/-- Lines that begin under another number say the same. -/
theorem ofLines_add (n d : Nat) (ls : List Text) :
    ofLines (n + d) ls = (ofLines n ls).map (shift d) := by
  have hnumbers : ls.zipIdx (n + d) = (ls.zipIdx n).map (Prod.map id (· + d)) := by
    rw [List.map_snd_add_zipIdx_eq_zipIdx, Nat.add_comm]
  -- Whether a line is significant does not depend on its number.
  simp only [ofLines, SourceLine.significant, hnumbers, List.map_map, List.filter_map]
  rfl

/-! ### Numbers -/

theorem line_of_mem_ofLines {n : Nat} {ls : List Text} {i : Item} (hi : i ∈ ofLines n ls) :
    n ≤ i.line ∧ i.line < n + ls.length := by
  obtain ⟨l, hl, rfl⟩ := List.mem_map.1 hi
  obtain ⟨hmem, -⟩ := List.mem_filter.1 hl
  obtain ⟨⟨physical, number⟩, hphysical, rfl⟩ := List.mem_map.1 hmem
  obtain ⟨hlow, hhigh, -⟩ := List.mem_zipIdx hphysical
  exact ⟨hlow, hhigh⟩

/-- Items come in the order of their numbers, and no number comes twice. -/
theorem pairwise_ofLines (n : Nat) (ls : List Text) :
    (ofLines n ls).Pairwise fun i j => i.line < j.line := by
  have hnumbers : (ls.zipIdx n).Pairwise fun p q => p.2 < q.2 := by
    apply List.pairwise_map.1
    rw [List.zipIdx_map_snd]
    exact List.pairwise_lt_range'
  have hlines : ((ls.zipIdx n).map fun p => (⟨p.2, p.1.trim⟩ : SourceLine)).Pairwise
      fun l m => l.number < m.number := by
    rw [List.pairwise_map]
    exact hnumbers
  rw [ofLines, List.pairwise_map]
  exact hlines.filter _

/-! ### Cutting a source -/

/-- The first lines of a source say what has a number among theirs. -/
theorem ofSource_takeLines (n : Nat) (source : Text) :
    ofSource (source.takeLines n) = (ofSource source).filter fun i => i.line ≤ n := by
  have hlines : ofSource (source.takeLines n) = ofLines 1 (source.lines.take n) := by
    cases n with
    | zero => rfl
    | succ n =>
      have hne : source.lines.take (n + 1) ≠ [] := by
        simp [Text.lines_ne_nil]
      rw [ofSource_eq_ofLines, Text.takeLines, Text.lines_unlines hne]
      intro l hl
      exact Text.newline_not_mem_of_mem_lines (List.mem_of_mem_take hl)
  have hall : ofSource source =
      ofLines 1 (source.lines.take n) ++
        ofLines (1 + (source.lines.take n).length) (source.lines.drop n) := by
    rw [← ofLines_append, List.take_append_drop]
    rfl
  have hkept : ∀ i ∈ ofLines 1 (source.lines.take n), decide (i.line ≤ n) = true := by
    intro i hi
    obtain ⟨-, hhigh⟩ := line_of_mem_ofLines hi
    have hlength := List.length_take_le n source.lines
    exact decide_eq_true (by omega)
  have hlost : ∀ i ∈ ofLines (1 + (source.lines.take n).length) (source.lines.drop n),
      ¬ decide (i.line ≤ n) = true := by
    intro i hi
    obtain ⟨hlow, hhigh⟩ := line_of_mem_ofLines hi
    rw [List.length_take] at hlow hhigh
    rw [List.length_drop] at hhigh
    rw [decide_eq_true_iff]
    omega
  rw [hlines, hall, List.filter_append, List.filter_eq_self.2 hkept,
    List.filter_eq_nil_iff.2 hlost, List.append_nil]

/-- A source that is cut right behind an item, or right before it. -/
theorem ofSource_takeLines_line {source : Text} {before after : List Item} {i : Item}
    (h : ofSource source = before ++ i :: after) :
    ofSource (source.takeLines i.line) = before ++ [i] ∧
      ofSource (source.takeLines (i.line - 1)) = before := by
  have hsorted := pairwise_ofLines 1 source.lines
  rw [← ofSource_eq_ofLines, h, List.pairwise_append, List.pairwise_cons] at hsorted
  obtain ⟨-, ⟨hafter, -⟩, hbefore⟩ := hsorted
  have hi : i ∈ ofLines 1 source.lines := by
    rw [← ofSource_eq_ofLines, h]
    exact List.mem_append_right before List.mem_cons_self
  obtain ⟨hpositive, -⟩ := line_of_mem_ofLines hi
  -- All that stands before the item has a lower number, all behind it a higher one.
  have hearly : ∀ n, i.line - 1 ≤ n → before.filter (fun j => decide (j.line ≤ n)) = before := by
    intro n hn
    refine List.filter_eq_self.2 ?_
    intro j hj
    have hlt := hbefore j hj i List.mem_cons_self
    exact decide_eq_true (by omega)
  have hlate : ∀ n, n ≤ i.line → after.filter (fun j => decide (j.line ≤ n)) = [] := by
    intro n hn
    refine List.filter_eq_nil_iff.2 ?_
    intro j hj
    have hlt := hafter j hj
    rw [decide_eq_true_iff]
    omega
  constructor
  · have hitself : decide (i.line ≤ i.line) = true := decide_eq_true (Nat.le_refl _)
    rw [ofSource_takeLines, h, List.filter_append, hearly i.line (Nat.sub_le _ _),
      List.filter_cons, if_pos hitself, hlate i.line (Nat.le_refl _)]
  · have hitself : ¬ decide (i.line ≤ i.line - 1) = true := by
      rw [decide_eq_true_iff]
      omega
    rw [ofSource_takeLines, h, List.filter_append, hearly (i.line - 1) (Nat.le_refl _),
      List.filter_cons, if_neg hitself, hlate (i.line - 1) (Nat.sub_le _ _), List.append_nil]

/-! ### Putting sources together -/

/-- A source below another one says what it says alone, further down. -/
theorem ofSource_append_newline (s t : Text) :
    ofSource (s ++ '\n' :: t) = ofSource s ++ (ofSource t).map (shift (s.count '\n' + 1)) := by
  rw [ofSource_eq_ofLines, ofSource_eq_ofLines, ofSource_eq_ofLines, Text.lines_append_newline,
    ofLines_append, ofLines_add, Text.length_lines]

end Item

end Dialogue
