import Dialogue.Markup.Segment

/-! # Pieces of a text line

    A text line is cut into pieces, each made of a non-empty span of the line
    and of what the span stands for:

    - `$NAME` refers to the variable NAME, the longest identifier behind the
      dollar; `$$` and a dollar without an identifier stand for a dollar;
    - a marker reaches from its opening braces to the first closing braces;
    - everything up to the next dollar or marker stands for itself.

    The spans of the pieces, put together, are the line again, also where a
    marker is refused. A marker without closing braces takes the rest of the
    line with it.
-/

namespace Dialogue

/-- A piece of a text line: its characters and what they stand for. -/
structure Piece where
  span : Text
  meaning : Except Cause Segment

namespace Piece

/-- The longest beginning that holds neither a dollar nor the start of a
    marker, and what follows it. -/
def splitPlain : Text → Text × Text
  | [] => ([], [])
  | '$' :: rest => ([], '$' :: rest)
  | '{' :: '{' :: rest => ([], '{' :: '{' :: rest)
  | c :: rest =>
    let parts := splitPlain rest
    (c :: parts.1, parts.2)

/-- The piece that a dollar begins, and what follows it. -/
def dollar : Text → Piece × Text
  | '$' :: rest => (⟨['$', '$'], .ok (.literal ['$'])⟩, rest)
  | rest =>
    let name := rest.takeWhile Text.isIdentifierChar
    (⟨'$' :: name, .ok (if name.isEmpty then .literal ['$'] else .reference name)⟩,
      rest.dropWhile Text.isIdentifierChar)

/-- The piece that opening braces begin, and what follows it. -/
def marker (rest : Text) : Piece × Text :=
  match Text.splitFirst? Token.markerClose rest with
  | none => (⟨Token.markerOpen ++ rest, .error .unterminatedMarker⟩, [])
  | some (inner, after) =>
    (⟨Token.markerOpen ++ inner ++ Token.markerClose, Segment.ofMarker inner.trim⟩, after)

/-- The piece that any other character begins, and what follows it. -/
def plain (c : Char) (rest : Text) : Piece × Text :=
  let parts := splitPlain rest
  (⟨c :: parts.1, .ok (.literal (c :: parts.1))⟩, parts.2)

/-- The first piece of a line that begins with `c`, and what follows it. -/
def first (c : Char) (rest : Text) : Piece × Text :=
  match c, rest with
  | '$', rest => dollar rest
  | '{', '{' :: rest => marker rest
  | c, rest => plain c rest

theorem splitPlain_append (t : Text) : (splitPlain t).1 ++ (splitPlain t).2 = t := by
  fun_induction splitPlain t with
  | case1 | case2 | case3 => rfl
  | case4 c rest parts _ _ ih => exact congrArg (c :: ·) ih

theorem dollar_span (rest : Text) : (dollar rest).1.span ++ (dollar rest).2 = '$' :: rest := by
  unfold dollar
  split <;> simp

theorem marker_span (rest : Text) :
    (marker rest).1.span ++ (marker rest).2 = Token.markerOpen ++ rest := by
  unfold marker
  split
  · simp
  · next inner after h => simp [Text.eq_of_splitFirst? h]

theorem plain_span (c : Char) (rest : Text) :
    (plain c rest).1.span ++ (plain c rest).2 = c :: rest := by
  simp [plain, splitPlain_append]

/-- A piece and what follows it are the line again. -/
theorem first_span (c : Char) (rest : Text) :
    (first c rest).1.span ++ (first c rest).2 = c :: rest := by
  unfold first
  split
  · exact dollar_span _
  · exact marker_span _
  · exact plain_span _ _

theorem first_span_ne_nil (c : Char) (rest : Text) : (first c rest).1.span ≠ [] := by
  unfold first
  split
  · unfold dollar; split <;> simp
  · unfold marker; split <;> simp [Token.markerOpen]
  · simp [plain]

/-- What follows a piece is shorter than the line. -/
theorem length_first_lt (c : Char) (rest : Text) :
    (first c rest).2.length < (c :: rest).length := by
  have h := congrArg List.length (first_span c rest)
  have := List.length_pos_iff.2 (first_span_ne_nil c rest)
  rw [List.length_append] at h
  omega

/-- The pieces of a text line. -/
def ofText : Text → List Piece
  | [] => []
  | c :: rest => (first c rest).1 :: ofText (first c rest).2
termination_by t => t.length
decreasing_by exact length_first_lt c rest

theorem ofText_cons (c : Char) (rest : Text) :
    ofText (c :: rest) = (first c rest).1 :: ofText (first c rest).2 := by
  rw [ofText]

/-- The spans of the pieces are the line again. -/
theorem flatMap_span_ofText (t : Text) : (ofText t).flatMap span = t := by
  fun_induction ofText t with
  | case1 => rfl
  | case2 c rest ih => rw [List.flatMap_cons, ih, first_span]

/-- Each piece begins some ending of the line. -/
theorem exists_first_of_mem_ofText {t : Text} {p : Piece} (h : p ∈ ofText t) :
    ∃ c rest, c :: rest <:+ t ∧ p = (first c rest).1 := by
  fun_induction ofText t with
  | case1 => simp at h
  | case2 c rest ih =>
    rcases List.mem_cons.1 h with rfl | h
    · exact ⟨c, rest, List.suffix_refl _, rfl⟩
    · obtain ⟨d, later, hlater, hp⟩ := ih h
      exact ⟨d, later, hlater.trans ⟨_, first_span c rest⟩, hp⟩

/-- The span of a piece is a part of the line. -/
theorem span_infix_of_mem_ofText {t : Text} {p : Piece} (h : p ∈ ofText t) : p.span <:+: t := by
  obtain ⟨c, rest, hending, rfl⟩ := exists_first_of_mem_ofText h
  have hbegin : (first c rest).1.span <+: c :: rest := ⟨_, first_span c rest⟩
  exact hbegin.isInfix.trans hending.isInfix

end Piece

end Dialogue
