import Dialogue.Proofs.Offsets

/-! # Where the pieces of a text end

    The pieces of a text line lie one behind the other and leave nothing out
    (`Piece.Tiling`), so it is enough to know of each where it ends. That depends on what
    begins it and on the text that is left there, and is read off the kinds of pieces that
    fit (`Piece.Fits`).

    Main result:
    - `pieces_tile_text`: the pieces of a text cover it without a gap, and each of them ends
      where it has to
-/

namespace Dialogue

/-- A run of characters of a kind ends where none of them follows. -/
theorem Text.prefix_of_run {p : Char → Bool} {name rest run : Text}
    (hend : ∀ c ∈ rest.head?, p c = false) (hrun : run <+: name ++ rest)
    (hall : ∀ c ∈ run, p c = true) : run <+: name := by
  rcases List.prefix_or_prefix_of_prefix hrun (List.prefix_append name rest) with h | h
  · exact h
  · -- A longer run would go on with the character that follows the name.
    obtain ⟨more, rfl⟩ := h
    cases more with
    | nil => simp
    | cons c more =>
      obtain ⟨later, rfl⟩ := (List.prefix_append_right_inj name).1 hrun
      have hchar : p c = true := hall c (by simp)
      rw [hend c rfl] at hchar
      cases hchar

namespace Piece

variable {p : Piece} {rest : Text}

/-- Each piece takes a character at least. -/
theorem Tiling.length_le {ps : List Piece} {t : Text} (h : Tiling ps t) : ps.length ≤ t.length := by
  induction h with
  | nil => exact Nat.le_refl 0
  | cons hp hps ih =>
    have hpos := List.length_pos_iff.2 hp.span_ne_nil
    rw [List.length_cons, List.length_append]
    omega

/-- A piece fits in front of those behind it, and they lie over what it leaves. -/
theorem Tiling.of_append {before after : List Piece} {t : Text}
    (h : Tiling (before ++ p :: after) t) :
    p.Fits (after.flatMap span) ∧ Tiling after (after.flatMap span) := by
  obtain ⟨-, hlater⟩ := h.split
  generalize (p :: after).flatMap span = later at hlater
  cases hlater with
  | cons hp hafter =>
    rw [hafter.flatMap_span]
    exact ⟨hp, hafter⟩

/-- What neither a dollar nor a marker opens stands for itself, and ends where one of them
    does. -/
theorem Fits.of_not_opens (h : p.Fits rest) (hspan : ¬ p.span.Opens) :
    p.meaning = .ok (.literal p.span) ∧ '$' ∉ p.span ∧ ¬ Token.markerOpen <:+: p.span ∧
      (rest = [] ∨ rest.Opens) := by
  cases h with
  | plainText hne hplain hend =>
    exact ⟨rfl, hplain.dollar_not_mem, hplain.not_markerOpen_infix, hend⟩
  | closed hfirst => exact absurd (Text.opens_cons_iff.2 (.inr ⟨rfl, rfl⟩)) hspan
  | unclosed hnone => exact absurd (Text.opens_cons_iff.2 (.inr ⟨rfl, rfl⟩)) hspan
  | _ => exact absurd (Text.opens_cons_iff.2 (.inl rfl)) hspan

/-- An open marker takes all that is left with it. -/
theorem Fits.rest_eq_nil (h : p.Fits rest) (hp : p.meaning = .error .unterminatedMarker) :
    rest = [] := by
  cases h with
  | unclosed hnone => rfl
  | closed hfirst => cases Segment.eq_of_ofMarker_eq_error hp
  | _ => cases hp

/-- A marker is refused as open if nothing closes it, and it ends with the first braces that
    do. -/
theorem Fits.ends_of_markerOpen {behind : Text} (h : p.Fits rest)
    (hopen : p.span ++ rest = Token.markerOpen ++ behind) :
    (p.meaning = .error .unterminatedMarker ↔ ¬ Token.markerClose <:+: behind) ∧
      (Token.markerClose <:+: behind →
        ∃ inner, p.span = Token.markerOpen ++ inner ++ Token.markerClose ∧
          ∀ early late, behind = early ++ Token.markerClose ++ late → inner <+: early) := by
  rcases h.of_markerOpen hopen with ⟨inner, rfl, rfl, hfirst⟩ | ⟨rfl, -, hnone⟩
  · have hclose : Token.markerClose <:+: inner ++ Token.markerClose ++ rest := ⟨inner, rest, rfl⟩
    refine ⟨iff_of_false ?_ (not_not.2 hclose), ?_⟩
    · intro hp
      cases Segment.eq_of_ofMarker_eq_error hp
    · intro _
      exact ⟨inner, rfl, fun early late heq => Text.prefix_of_not_infix_append hfirst heq⟩
  · exact ⟨iff_of_true rfl hnone, fun hclose => absurd hclose hnone⟩

/-- A name goes on as far as there are characters for it. -/
theorem Fits.ends_of_reference {name : Text} (h : p.Fits rest)
    (hp : p.meaning = .ok (.reference name)) :
    p.span = '$' :: name ∧ Text.isIdentifier name = true ∧
      ∀ run, run <+: name ++ rest → (∀ c ∈ run, Text.isIdentifierChar c = true) →
        run <+: name := by
  cases h with
  | reference hname hend =>
    cases hp
    exact ⟨rfl, hname, fun run hrun hall => Text.prefix_of_run hend hrun hall⟩
  | closed hfirst => exact (Segment.isMarker_of_ofMarker hp).elim
  | _ => cases hp

end Piece

/-- Whatever a text holds, and also behind what is refused, its pieces cover it without a gap
    and without an overlap, and they are the only ones that fit. Each takes a character at
    least, so there are no more of them than characters. Where the rest of the text begins
    with a piece `p`, just `p` is cut off. If nothing opens it, it is plain text to the next
    dollar or marker, or to the end. If a marker opens it, it ends with the first closing
    braces, or there are none, which is what it is refused for, and then nothing follows it.
    And the name of a variable is the longest run of its characters behind the dollar. -/
theorem pieces_tile_text (t : Text) :
    (∀ ps : List Piece, Piece.Tiling ps t ↔ ps = Piece.ofText t) ∧
    (Piece.ofText t).flatMap Piece.span = t ∧
    (Piece.ofText t).length ≤ t.length ∧
    ∀ (before after : List Piece) (p : Piece), Piece.ofText t = before ++ p :: after →
      let rest : Text := after.flatMap Piece.span
      p.span ≠ [] ∧
      (∃ c more, p.span ++ rest = c :: more ∧ Piece.first c more = (p, rest)) ∧
      (¬ p.span.Opens →
        p.meaning = .ok (.literal p.span) ∧ '$' ∉ p.span ∧ ¬ Token.markerOpen <:+: p.span ∧
          (rest = [] ∨ rest.Opens)) ∧
      (∀ behind, p.span ++ rest = Token.markerOpen ++ behind →
        (p.meaning = .error .unterminatedMarker ↔ ¬ Token.markerClose <:+: behind) ∧
        (Token.markerClose <:+: behind →
          ∃ inner, p.span = Token.markerOpen ++ inner ++ Token.markerClose ∧
            ∀ early late, behind = early ++ Token.markerClose ++ late → inner <+: early)) ∧
      (p.meaning = .error .unterminatedMarker → after = []) ∧
      ∀ name, p.meaning = .ok (.reference name) →
        p.span = '$' :: name ∧ Text.isIdentifier name = true ∧
          ∀ run, run <+: name ++ rest → (∀ c ∈ run, Text.isIdentifierChar c = true) →
            run <+: name := by
  have htiling := Piece.tiling_ofText t
  refine ⟨fun ps => Piece.tiling_iff, Piece.flatMap_span_ofText t, htiling.length_le, ?_⟩
  intro before after p hsplit rest
  rw [hsplit] at htiling
  obtain ⟨hfits, hafter⟩ := htiling.of_append
  refine ⟨hfits.span_ne_nil, Piece.fits_iff.1 hfits, hfits.of_not_opens,
    fun behind => hfits.ends_of_markerOpen, ?_, fun name => hfits.ends_of_reference⟩
  intro hp
  -- Nothing is left for any more pieces.
  have hnil : after.flatMap Piece.span = [] := hfits.rest_eq_nil hp
  calc after = Piece.ofText (after.flatMap Piece.span) := hafter.eq_ofText
    _ = [] := by rw [hnil, Piece.ofText]

/-! ### A line where much begins and little ends -/

/-- A line with three dollars in a row, with one in front of a letter that names nothing, and
    with braces that go beyond a marker on both sides. Two markers of it are refused, and one
    more is never closed. -/
def ruggedLine : Text :=
  "\x7b$$$a1$é\x7bx\x7b\x7b\x7b f \x7d\x7d\x7d\x7b\x7b\x7d\x7d$\x7b\x7b\x7b\x7d".toList

/-- What stands between the first opening braces and the first closing ones. -/
def ruggedInner : Text := ['{', ' ', 'f', ' ']

/-- The marker in the middle of it. -/
def ruggedMarker : Piece :=
  ⟨Token.markerOpen ++ ruggedInner ++ Token.markerClose, .error (.malformedMarker ['{', ' ', 'f'])⟩

/-- What is in front of the variable. -/
def ruggedFront : List Piece :=
  [⟨['{'], .ok (.literal ['{'])⟩, ⟨['$', '$'], .ok (.literal ['$'])⟩]

/-- What is between the variable and the marker. -/
def ruggedMiddle : List Piece :=
  [⟨['$'], .ok (.literal ['$'])⟩, ⟨['é', '{', 'x'], .ok (.literal ['é', '{', 'x'])⟩]

/-- What is behind the marker. -/
def ruggedBack : List Piece :=
  [⟨['}'], .ok (.literal ['}'])⟩, ⟨['{', '{', '}', '}'], .error (.malformedMarker [])⟩,
    ⟨['$'], .ok (.literal ['$'])⟩, ⟨['{', '{', '{', '}'], .error .unterminatedMarker⟩]

/-- There are no other pieces for the line. Its variable ends as late as it can, and its
    marker as soon as it can. -/
theorem pieces_tile_ruggedLine :
    let named : Piece := ⟨['$', 'a', '1'], .ok (.reference ['a', '1'])⟩
    let pieces := ruggedFront ++ named :: (ruggedMiddle ++ ruggedMarker :: ruggedBack)
    Piece.ofText ruggedLine = pieces ∧ (∀ ps, Piece.Tiling ps ruggedLine ↔ ps = pieces) ∧
    (∀ run, run <+: ['a', '1', '$', 'é'] → (∀ c ∈ run, Text.isIdentifierChar c = true) →
      run <+: ['a', '1']) ∧
    ∀ early late,
      ruggedInner ++ Token.markerClose ++ ruggedBack.flatMap Piece.span =
        early ++ Token.markerClose ++ late → ruggedInner <+: early := by
  intro named pieces
  have hpieces : Piece.ofText ruggedLine = pieces := by decide +kernel
  have hmiddle : Piece.ofText ruggedLine =
      (ruggedFront ++ named :: ruggedMiddle) ++ ruggedMarker :: ruggedBack := by
    rw [hpieces]
    simp [pieces]
  obtain ⟨honly, -, -, hpiece⟩ := pieces_tile_text ruggedLine
  obtain ⟨-, -, -, -, -, hname⟩ := hpiece _ _ _ hpieces
  obtain ⟨-, -, hlongest⟩ := hname ['a', '1'] rfl
  obtain ⟨-, -, -, hmarker, -, -⟩ := hpiece _ _ _ hmiddle
  obtain ⟨-, hclosed⟩ := hmarker
    (ruggedInner ++ Token.markerClose ++ ruggedBack.flatMap Piece.span) (by simp [ruggedMarker])
  obtain ⟨inner, hspan, hfirst⟩ := hclosed ⟨ruggedInner, ruggedBack.flatMap Piece.span, rfl⟩
  have hinner : ruggedInner = inner := List.append_cancel_left (List.append_cancel_right hspan)
  refine ⟨hpieces, ?_, ?_, ?_⟩
  · rw [← hpieces]
    exact honly
  · intro run hrun hall
    exact hlongest run (hrun.trans (by decide +kernel)) hall
  · rw [hinner] at hfirst ⊢
    exact hfirst

end Dialogue
