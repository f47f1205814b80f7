import Dialogue.Text.Basic

/-! # Variables

    The global variables of a story: a value for each of finitely many names.
    Two sets of variables are equal when they agree on every name, whatever the
    order in which they were filled.
-/

namespace Dialogue

/-- Values by name. -/
abbrev Variables := TextMap Text

namespace Variables

/-- Sets each name to its value, in order, so that the last value of a name
    stays. -/
def insertAll (v : Variables) (pairs : List (Text × Text)) : Variables :=
  pairs.foldl (fun v p => v.insert p.1 p.2) v

/-- The variables with these values, where the last value of a name counts. -/
def ofPairs (pairs : List (Text × Text)) : Variables := insertAll ∅ pairs

theorem insertAll_append (v : Variables) (ps qs : List (Text × Text)) :
    v.insertAll (ps ++ qs) = (v.insertAll ps).insertAll qs :=
  List.foldl_append

/-- The last value that a name is given stays, and a name that is given none
    keeps the value it had. -/
theorem getElem?_insertAll (v : Variables) (pairs : List (Text × Text)) (x : Text) :
    (v.insertAll pairs)[x]? = ((pairs.reverse.find? fun p => p.1 == x).map Prod.snd).or v[x]? := by
  induction pairs generalizing v with
  | nil => simp [insertAll]
  | cons p rest ih =>
    rw [show v.insertAll (p :: rest) = insertAll (v.insert p.1 p.2) rest from rfl, ih,
      List.reverse_cons, List.find?_append, Option.map_or, Option.or_assoc,
      Std.ExtTreeMap.getElem?_insert]
    congr 1
    by_cases h : p.1 = x
    · simp [h]
    · simp [h]

end Variables

end Dialogue
