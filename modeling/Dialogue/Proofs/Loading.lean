import Mathlib.Data.Finset.Card
import Dialogue.Variables.Load

/-! # What loading notes

    Loading goes through what a table yields, with the variables so far in its hand, and
    notes each value that goes. The notes are told here from the pairs alone: a pair is noted
    if its name has come before, with the value of the latest of the pairs before it that has
    the name (`Variables.replacements`).

    The invariant of the loop is that the variables in hand are those of the pairs before.
    Looking a name up in them is looking for the latest of these pairs, so each pair is noted
    as it should be (`Feed.loadInto_ok_cons`). Each pair is noted or brings a new name, never
    both, and this counts the notes.

    Main result:
    - `loading_notes_replacements`: what loading answers and notes, whether the table comes to
      its end or to a record at fault
-/

namespace Dialogue

namespace Variables

variable {before pairs : List (Text × Text)} {p : Text × Text}

/-! ### The notes -/

/-- The note about a pair behind others. Its value takes the place of the one that the latest
    of them with the same name has, if there is any. -/
def replacement? (before : List (Text × Text)) (p : Text × Text) : Option Notice :=
  (before.reverse.find? fun q => q.1 == p.1).map fun q => .replaced p.1 q.2

/-- The notes about pairs, one after the other. -/
def replacements (pairs : List (Text × Text)) : List Notice :=
  (List.range pairs.length).filterMap fun j => pairs[j]?.bind (replacement? (pairs.take j))

theorem replacements_concat (pairs : List (Text × Text)) (p : Text × Text) :
    replacements (pairs ++ [p]) = replacements pairs ++ (replacement? pairs p).toList := by
  have hfirst : ∀ j ∈ List.range pairs.length,
      ((pairs ++ [p])[j]?.bind (replacement? ((pairs ++ [p]).take j))) =
        pairs[j]?.bind (replacement? (pairs.take j)) := by
    intro j hj
    have hlt : j < pairs.length := List.mem_range.1 hj
    rw [List.getElem?_append_left hlt, List.take_append_of_le_length (Nat.le_of_lt hlt)]
  have hlast : (pairs ++ [p])[pairs.length]?.bind
      (replacement? ((pairs ++ [p]).take pairs.length)) = replacement? pairs p := by
    rw [List.getElem?_concat_length, List.take_left]
    rfl
  rw [replacements, List.length_append, List.length_singleton, List.range_succ,
    List.filterMap_append, List.filterMap_congr hfirst]
  congr 1
  rw [List.filterMap_cons, hlast]
  cases replacement? pairs p with
  | none => rfl
  | some n => rfl

/-- Replacing a value is a warning. -/
theorem level_of_mem_replacements {n : Notice} (hn : n ∈ replacements pairs) :
    n.level = .warn := by
  obtain ⟨j, -, hj⟩ := List.mem_filterMap.1 hn
  obtain ⟨p, -, hp⟩ := Option.bind_eq_some_iff.1 hj
  obtain ⟨q, -, rfl⟩ := Option.map_eq_some_iff.1 hp
  rfl

/-! ### The variables so far -/

theorem ofPairs_concat (pairs : List (Text × Text)) (p : Text × Text) :
    ofPairs (pairs ++ [p]) = (ofPairs pairs).insert p.1 p.2 :=
  insertAll_append ∅ pairs [p]

/-- The value of a name is that of its latest pair. -/
theorem getElem?_ofPairs_eq (pairs : List (Text × Text)) (x : Text) :
    (ofPairs pairs)[x]? = (pairs.reverse.find? fun p => p.1 == x).map Prod.snd := by
  rw [ofPairs, getElem?_insertAll, Std.ExtTreeMap.getElem?_empty, Option.or_none]

/-- The variables have the names of the pairs. -/
theorem mem_ofPairs_iff {x : Text} : x ∈ ofPairs pairs ↔ x ∈ pairs.map Prod.fst := by
  rw [Std.ExtTreeMap.mem_iff_isSome_getElem?, getElem?_ofPairs_eq, Option.isSome_map,
    List.find?_isSome]
  simp

/-- To look for a pair of the same name is to look the name up. -/
theorem replacement?_eq_map (before : List (Text × Text)) (p : Text × Text) :
    replacement? before p = (ofPairs before)[p.1]?.map (.replaced p.1) := by
  rw [replacement?, getElem?_ofPairs_eq, Option.map_map]
  rfl

/-- A pair is noted unless its name is new. -/
theorem replacement?_eq_none_iff : replacement? before p = none ↔ p.1 ∉ before.map Prod.fst := by
  rw [replacement?_eq_map, Option.map_eq_none_iff, ← mem_ofPairs_iff,
    Std.ExtTreeMap.mem_iff_isSome_getElem?, Option.not_isSome_iff_eq_none]

/-! ### Counting -/

theorem card_names_concat (pairs : List (Text × Text)) (p : Text × Text) :
    ((pairs ++ [p]).map Prod.fst).toFinset.card =
      if p.1 ∈ pairs.map Prod.fst then (pairs.map Prod.fst).toFinset.card
      else (pairs.map Prod.fst).toFinset.card + 1 := by
  have hnames : ((pairs ++ [p]).map Prod.fst).toFinset =
      insert p.1 (pairs.map Prod.fst).toFinset := by
    rw [List.map_append, List.map_singleton, List.toFinset_append, List.toFinset_cons,
      List.toFinset_nil, Finset.union_comm]
    rfl
  rw [hnames, Finset.card_insert_eq_ite]
  simp only [List.mem_toFinset]

/-- There are as many variables as different names. -/
theorem size_ofPairs (pairs : List (Text × Text)) :
    (ofPairs pairs).size = (pairs.map Prod.fst).toFinset.card := by
  induction pairs using List.reverseRecOn with
  | nil => rfl
  | append_singleton pairs p ih =>
    rw [ofPairs_concat, Std.ExtTreeMap.size_insert, card_names_concat, ih]
    simp only [Std.ExtTreeMap.contains_iff_mem, mem_ofPairs_iff]

/-- Each pair is noted or has a new name. -/
theorem length_replacements (pairs : List (Text × Text)) :
    (replacements pairs).length + (pairs.map Prod.fst).toFinset.card = pairs.length := by
  induction pairs using List.reverseRecOn with
  | nil => rfl
  | append_singleton pairs p ih =>
    rw [replacements_concat, card_names_concat, List.length_append, List.length_append,
      List.length_singleton]
    by_cases hknown : p.1 ∈ pairs.map Prod.fst
    · have hnoted : replacement? pairs p ≠ none := fun hnone =>
        replacement?_eq_none_iff.1 hnone hknown
      obtain ⟨n, hn⟩ := Option.ne_none_iff_exists'.1 hnoted
      rw [if_pos hknown, hn, Option.toList_some, List.length_singleton]
      omega
    · rw [if_neg hknown, replacement?_eq_none_iff.2 hknown, Option.toList_none, List.length_nil]
      omega

end Variables

/-! ### The loop -/

namespace Feed

open Variables

variable {before pairs : List (Text × Text)}

/-- One pair is noted by the pairs before it, and is one of them for the rest. -/
theorem loadInto_ok_cons (before : List (Text × Text)) (p : Text × Text) (rest : Feed) :
    loadInto (ofPairs before) (.ok p :: rest) =
      let r := loadInto (ofPairs (before ++ [p])) rest
      (r.1, (replacement? before p).toList ++ r.2) := by
  obtain ⟨name, value⟩ := p
  rw [loadInto, replacement?_eq_map, ofPairs_concat]
  cases (ofPairs before)[name]? with
  | none => rfl
  | some old => rfl

/-- Along a run of pairs, the notes so far and those to come are the notes about all of
    them. -/
theorem loadInto_append (before pairs : List (Text × Text)) (rest : Feed) :
    let r := loadInto (ofPairs before) (pairs.map .ok ++ rest)
    let later := loadInto (ofPairs (before ++ pairs)) rest
    r.1 = later.1 ∧ replacements before ++ r.2 = replacements (before ++ pairs) ++ later.2 := by
  induction pairs generalizing before with
  | nil => simp
  | cons p pairs ih =>
    obtain ⟨hresult, hnotes⟩ := ih (before ++ [p])
    rw [replacements_concat, List.append_assoc, List.append_assoc] at hnotes
    rw [List.append_assoc] at hresult
    rw [List.map_cons, List.cons_append, loadInto_ok_cons]
    exact ⟨hresult, hnotes⟩

theorem load_append (pairs : List (Text × Text)) (rest : Feed) :
    load (pairs.map .ok ++ rest) =
      let later := loadInto (ofPairs pairs) rest
      (later.1, replacements pairs ++ later.2) :=
  Prod.ext (loadInto_append [] pairs rest).1 (loadInto_append [] pairs rest).2

end Feed

/-- Let a table yield these pairs. Loading notes, in order, each of them whose name has come
    before, with the value of the latest pair before it that has the name, and warns of
    nothing else. If that is all, it gives the variables where the last value of a name
    counts, and ends with a note of how many names there are, so that each pair is counted
    once. If an error follows, that error is the answer, and nothing is heard of what comes
    behind it. -/
theorem loading_notes_replacements (pairs : List (Text × Text)) (e : LoadError) (later : Feed) :
    let known := (pairs.map Prod.fst).toFinset.card
    Feed.load (pairs.map .ok) =
      (.ok (.ofPairs pairs), Variables.replacements pairs ++ [.loaded known]) ∧
    (∀ x, (Variables.ofPairs pairs)[x]? =
      (pairs.reverse.find? fun p => p.1 == x).map Prod.snd) ∧
    (Variables.replacements pairs).length + known = pairs.length ∧
    Feed.load (pairs.map .ok ++ .error e :: later) = (.error e, Variables.replacements pairs) ∧
    (∀ n ∈ Variables.replacements pairs, n.level = .warn) ∧
    (Notice.loaded known).level = .debug := by
  intro known
  refine ⟨?_, Variables.getElem?_ofPairs_eq pairs, Variables.length_replacements pairs, ?_,
    fun _ hn => Variables.level_of_mem_replacements hn, rfl⟩
  · have hload := Feed.load_append pairs []
    rw [List.append_nil] at hload
    rw [hload, Feed.loadInto, Variables.size_ofPairs]
  · rw [Feed.load_append, Feed.loadInto]
    dsimp only
    rw [List.append_nil]

/-- Of four pairs, the third takes the place of the first and the last that of the third. -/
example :
    Variables.replacements [(['P'], ['A']), (['Q'], ['B']), (['P'], ['C']), (['P'], ['D'])] =
      [.replaced ['P'] ['A'], .replaced ['P'] ['C']] := by decide

end Dialogue
