import Dialogue.Proofs.Interpretation
import Dialogue.Proofs.Phrasing

/-! # What an offset means

    A function of a line has an offset into the text of the line, and the text is only known
    when the variables are. What the offset means in the script is read off the markers: a
    text line can be cut at each of them, and both sides compile as they do in the line.

    The difficulty is that the pieces of a text are not independent of each other. A dollar
    in front of a marker is a piece of its own because no name follows it, and a brace in
    front of one is plain text. So a part that is cut off must still be read as it was with
    the marker behind it. That it is follows from one condition on what comes next: it is
    empty, or it begins as before (`Text.OpensLike`). A piece fits in front of all
    such texts (`Piece.Fits.of_opensLike`), and by induction so do all pieces up to a cut
    (`Piece.Tiling.split`).

    Main results:
    - `compile_at_marker`: a line compiles if its two parts at a marker do, and it is their
      join; and what a function stands behind compiles to what its offset counts
-/

namespace Dialogue

/-! ### Cutting between pieces -/

/-- The text is empty, or it begins as the other does, as far as a piece in front of it
    looks. -/
def Text.OpensLike (later after : Text) : Prop :=
  later = [] ∨ later.head? = after.head? ∧ (Token.markerOpen <+: after → Token.markerOpen <+: later)

namespace Text

variable {later after : Text}

theorem OpensLike.mem_head? (h : later.OpensLike after) {c : Char} (hc : c ∈ later.head?) :
    c ∈ after.head? := by
  rcases h with rfl | ⟨hhead, -⟩
  · cases hc
  · rwa [← hhead]

theorem OpensLike.eq_nil (h : later.OpensLike []) : later = [] := by
  rcases h with hnil | ⟨hhead, -⟩
  · exact hnil
  · exact List.head?_eq_none_iff.1 hhead

end Text

namespace Piece

variable {p : Piece} {rest later : Text}

/-- Plain text is plain in front of every text that begins like the one that followed it. -/
theorem isPlain_of_opensLike {span : Text} (h : later.OpensLike rest) (hplain : span.IsPlain rest) :
    span.IsPlain later := by
  intro v hv hne hopens
  obtain ⟨c, v, rfl⟩ := List.exists_cons_of_ne_nil hne
  refine hplain _ hv hne (Text.opens_cons_iff.2 ?_)
  rcases Text.opens_cons_iff.1 hopens with hdollar | ⟨hbrace, hhead⟩
  · exact .inl hdollar
  · refine .inr ⟨hbrace, ?_⟩
    cases v with
    | nil => exact h.mem_head? hhead
    | cons d v => exact hhead

/-- A piece fits in front of every text that begins like the one that followed it. -/
theorem Fits.of_opensLike (hp : p.Fits rest) (h : later.OpensLike rest) :
    p.Fits later := by
  cases hp with
  | plainText hne hplain hend =>
    refine .plainText hne (isPlain_of_opensLike h hplain) ?_
    rcases h with hnil | ⟨hhead, hmarker⟩
    · exact .inl hnil
    · rcases hend with rfl | ⟨more, rfl⟩ | hopen
      · exact .inl (List.head?_eq_none_iff.1 hhead)
      · obtain ⟨later, rfl⟩ := List.head?_eq_some_iff.1 hhead
        exact .inr (.inl (List.prefix_append ['$'] later))
      · exact .inr (.inr (hmarker hopen))
  | dollarPair => exact .dollarPair
  | loneDollar hdollar hend =>
    exact .loneDollar (fun hc => hdollar (h.mem_head? hc)) fun c hc => hend c (h.mem_head? hc)
  | reference hname hend => exact .reference hname fun c hc => hend c (h.mem_head? hc)
  | closed hfirst => exact .closed hfirst
  | unclosed hnone =>
    rw [h.eq_nil]
    exact .unclosed hnone

theorem Fits.markerOpen_prefix_span (hp : p.Fits rest)
    (h : Token.markerOpen <+: p.span ++ rest) : Token.markerOpen <+: p.span := by
  obtain ⟨behind, hbehind⟩ := h
  rcases hp.of_markerOpen hbehind.symm with ⟨inner, rfl, -, -⟩ | ⟨rfl, -, -⟩
  · dsimp only
    rw [List.append_assoc]
    exact List.prefix_append _ _
  · exact List.prefix_append _ _

variable {t : Text} {ps qs : List Piece}

/-- The first pieces of a text begin as the text does, if there are any. -/
theorem Tiling.opensLike (h : Tiling (ps ++ qs) t) : Text.OpensLike (ps.flatMap span) t := by
  cases ps with
  | nil => exact .inl rfl
  | cons p ps =>
    cases h with
    | cons hp hlater =>
      have hne := hp.span_ne_nil
      rw [List.flatMap_cons]
      refine .inr ⟨?_, ?_⟩
      · rw [Text.head?_append_left hne, Text.head?_append_left hne]
      · intro hopen
        exact (hp.markerOpen_prefix_span hopen).trans (List.prefix_append _ _)

/-- Where pieces are cut in two, either part lies over what it covers. -/
theorem Tiling.split (h : Tiling (ps ++ qs) t) :
    Tiling ps (ps.flatMap span) ∧ Tiling qs (qs.flatMap span) := by
  induction ps generalizing t with
  | nil =>
    have hqs : Tiling qs t := h
    rw [hqs.flatMap_span]
    exact ⟨.nil, hqs⟩
  | cons p ps ih =>
    cases h with
    | cons hp hlater =>
      obtain ⟨hps, hqs⟩ := ih hlater
      exact ⟨.cons (hp.of_opensLike hlater.opensLike) hps, hqs⟩

/-- Where a text is cut between two of its pieces, the parts are read as the whole is. -/
theorem ofText_split (h : ofText t = ps ++ qs) :
    ofText (ps.flatMap span) = ps ∧ ofText (qs.flatMap span) = qs := by
  have htiling := tiling_ofText t
  rw [h] at htiling
  obtain ⟨hps, hqs⟩ := htiling.split
  exact ⟨hps.eq_ofText.symm, hqs.eq_ofText.symm⟩

end Piece

/-! ### Markers in a line -/

/-- The path in an image marker. -/
def Segment.image? : Segment → Option Text
  | .image path => some path
  | _ => none

/-- The line made of `a`, a marker and `b`. The marker adds nothing to the text. If it runs a
    function, that is behind the text of `a`, and so are the functions of `b`. The last
    image counts. -/
def Line.joined (a : Line) (mark : Segment) (b : Line) : Line where
  speaker := a.speaker
  content :=
    { text := a.content.text ++ b.content.text
      invocations := a.content.invocations ++
        (mark.function?.map (Invocation.mk a.content.text.length)).toList ++
        b.content.invocations.map (Invocation.shift a.content.text.length) }
  image := b.image.or (mark.image?.or a.image)

namespace Stretch

variable {globals : Variables}

/-- What a marker contributes. It needs no variable. -/
def ofMarker (mark : Segment) : Stretch where
  text := []
  invocations := (mark.function?.map (Invocation.mk 0)).toList
  image := mark.image?

theorem ofSegment_of_isMarker {mark : Segment} (h : mark.IsMarker) :
    ofSegment globals mark = .ok (ofMarker mark) := by
  cases mark with
  | literal t => exact h.elim
  | reference name => exact h.elim
  | function name => rfl
  | image path => rfl

theorem toLine_joined (a b : Stretch) (mark : Segment) (speaker : Text) :
    (a ++ (ofMarker mark ++ b)).toLine speaker =
      (a.toLine speaker).joined mark (b.toLine speaker) := by
  cases mark <;> simp [toLine, Line.joined, ofMarker, Segment.function?, Segment.image?,
    Invocation.shift]

/-- A text contributes what it does in front of a marker, the marker, and what it does behind
    it. -/
theorem ofText_eq_of_split {raw : Text} {before after : List Piece} {p : Piece} {mark : Segment}
    (hraw : Piece.ofText raw = before ++ p :: after) (hp : p.meaning = .ok mark)
    (hmark : mark.IsMarker) :
    ofText globals raw = (do
      let a ← ofText globals (before.flatMap Piece.span)
      let b ← ofText globals (after.flatMap Piece.span)
      return a ++ (ofMarker mark ++ b)) := by
  have hbefore := (Piece.ofText_split hraw).1
  have hafter : Piece.ofText (after.flatMap Piece.span) = after := by
    have hcut : Piece.ofText raw = (before ++ [p]) ++ after := by simp [hraw]
    exact (Piece.ofText_split hcut).2
  have hone : ofPieces globals (p :: after) = (do
      let b ← ofPieces globals after
      return ofMarker mark ++ b) := by
    rw [ofPieces, hp]
    show (ofSegment globals mark >>= _) = _
    rw [ofSegment_of_isMarker hmark]
    rfl
  rw [ofText, ofText, ofText, hraw, hbefore, hafter, ofPieces_append, hone]
  cases ofPieces globals before with
  | error e => rfl
  | ok a => cases ofPieces globals after <;> rfl

/-- Of the segments, just functions are to be run. -/
theorem invocations_ofSegment {s : Segment} {a : Stretch} (h : ofSegment globals s = .ok a) :
    a.invocations = (s.function?.map (Invocation.mk 0)).toList := by
  cases s with
  | reference name =>
    rw [ofSegment] at h
    split at h
    · cases h
      rfl
    · cases h
  | _ =>
    cases h
    rfl

/-- Each function to be run comes from a marker. What the pieces in front of the marker
    contribute is run before it, and their text ends at its offset. -/
theorem exists_marker_of_invocations {ps : List Piece} {s : Stretch}
    (h : ofPieces globals ps = .ok s) {is js : List Invocation} {i : Invocation}
    (hi : s.invocations = is ++ i :: js) :
    ∃ before p after a, ps = before ++ p :: after ∧ p.meaning = .ok (.function i.function) ∧
      ofPieces globals before = .ok a ∧ a.invocations = is ∧ a.text.length = i.offset ∧
      a.text <+: s.text := by
  -- From the end of the pieces, as the offsets count from the beginning.
  induction ps using List.reverseRecOn generalizing s js with
  | nil =>
    cases h
    simp [nil] at hi
  | append_singleton ps p ih =>
    rw [ofPieces_append, Except.bind_eq_ok_iff] at h
    obtain ⟨a, ha, h⟩ := h
    rw [Except.bind_eq_ok_iff] at h
    obtain ⟨b, hb, h⟩ := h
    obtain rfl : a ++ b = s := Except.ok.inj h
    simp only [ofPieces, Except.bind_eq_ok_iff] at hb
    obtain ⟨segment, hsegment, x, hx, _, hnil, hb⟩ := hb
    cases hnil
    obtain rfl : x ++ nil = b := Except.ok.inj hb
    rw [append_nil] at hi ⊢
    have hearlier : ∀ {later : List Invocation}, a.invocations = is ++ i :: later →
        ∃ before q after c, ps ++ [p] = before ++ q :: after ∧
          q.meaning = .ok (.function i.function) ∧ ofPieces globals before = .ok c ∧
          c.invocations = is ∧ c.text.length = i.offset ∧ c.text <+: (a ++ x).text := by
      intro later hlater
      obtain ⟨before, q, after, c, rfl, hq, hc, his, hoffset, htext⟩ := ih ha hlater
      exact ⟨before, q, after ++ [p], c, by simp, hq, hc, his, hoffset,
        htext.trans (List.prefix_append _ _)⟩
    rw [invocations_append, invocations_ofSegment hx] at hi
    cases hfunction : segment.function? with
    | none =>
      rw [hfunction] at hi
      exact hearlier (by simpa using hi)
    | some f =>
      rw [hfunction] at hi
      obtain rfl | ⟨js, j, rfl⟩ := List.eq_nil_or_concat js
      · -- It is the function of the last piece.
        have hlast : a.invocations ++ [⟨a.text.length, f⟩] = is ++ [i] := by
          simpa [Invocation.shift] using hi
        obtain ⟨his, hi⟩ := List.append_inj' hlast rfl
        obtain rfl := List.singleton_inj.1 hi
        refine ⟨ps, p, [], a, rfl, ?_, ha, his, rfl, List.prefix_append _ _⟩
        cases segment with
        | function g =>
          cases hfunction
          exact hsegment
        | _ => cases hfunction
      · have hinit : a.invocations ++ [⟨a.text.length, f⟩] = (is ++ i :: js) ++ [j] := by
          simpa [Invocation.shift] using hi
        exact hearlier (List.append_inj' hinit rfl).1

end Stretch

/-- A text line can be compiled in parts. At a marker, the text in front of it and the text
    behind it compile if the whole line does, and only then, and the line is made of both
    with the marker between them. And wherever a function is run, it was written as a marker
    behind a text that compiles to just what stands in front of its offset, with just the
    functions that are run before it. -/
theorem compile_at_marker (globals : Variables) (speaker raw : Text) :
    (∀ (before after : List Piece) (p : Piece) (mark : Segment),
      Piece.ofText raw = before ++ p :: after → p.meaning = .ok mark → mark.IsMarker →
        let left := before.flatMap Piece.span
        let right := after.flatMap Piece.span
        raw = left ++ p.span ++ right ∧
        ((∃ l, Line.compile globals speaker raw = .ok l) ↔
          (∃ a, Line.compile globals speaker left = .ok a) ∧
            ∃ b, Line.compile globals speaker right = .ok b) ∧
        ∀ a b, Line.compile globals speaker left = .ok a →
          Line.compile globals speaker right = .ok b →
            Line.compile globals speaker raw = .ok (a.joined mark b)) ∧
    ∀ l, Line.compile globals speaker raw = .ok l → ∀ is i js,
      l.content.invocations = is ++ i :: js →
        ∃ before p after a, Piece.ofText raw = before ++ p :: after ∧
          p.meaning = .ok (.function i.function) ∧
          Line.compile globals speaker (before.flatMap Piece.span) = .ok a ∧
          a.content.invocations = is ∧ a.content.text.length = i.offset ∧
          a.content.text = l.content.text.take i.offset := by
  refine ⟨?_, ?_⟩
  · -- The parts contribute by themselves what they do in the line.
    intro before after p mark hraw hp hmark left right
    have hwhole : raw = left ++ p.span ++ right := by
      rw [← Piece.flatMap_span_ofText raw, hraw]
      simp [left, right]
    have hjoined : Line.compile globals speaker raw = (do
        let a ← Line.compile globals speaker left
        let b ← Line.compile globals speaker right
        return a.joined mark b) := by
      simp only [Line.compile_eq_map, Stretch.ofText_eq_of_split hraw hp hmark]
      cases Stretch.ofText globals left with
      | error e => rfl
      | ok a =>
        cases Stretch.ofText globals right with
        | error e => rfl
        | ok b => exact congrArg Except.ok (Stretch.toLine_joined a b mark speaker)
    refine ⟨hwhole, ?_, ?_⟩
    · simp only [hjoined, Except.bind_eq_ok_iff]
      constructor
      · rintro ⟨_, a, ha, b, hb, -⟩
        exact ⟨⟨a, ha⟩, b, hb⟩
      · rintro ⟨⟨a, ha⟩, b, hb⟩
        exact ⟨_, a, ha, b, hb, rfl⟩
    · intro a b ha hb
      rw [hjoined, ha, hb]
      rfl
  · -- The pieces in front of the marker are those of the text that they cover.
    intro l hl is i js hi
    obtain ⟨s, hs, rfl⟩ := Line.compile_eq_ok_iff.1 hl
    obtain ⟨before, p, after, a, hraw, hp, ha, his, hoffset, htext⟩ :=
      Stretch.exists_marker_of_invocations hs hi
    have hleft : Stretch.ofText globals (before.flatMap Piece.span) = .ok a := by
      rw [Stretch.ofText, (Piece.ofText_split hraw).1]
      exact ha
    refine ⟨before, p, after, a.toLine speaker, hraw, hp,
      Line.compile_eq_ok_iff.2 ⟨a, hleft, rfl⟩, his, hoffset, ?_⟩
    rw [← hoffset]
    exact List.prefix_iff_eq_take.1 htext

/-! ### A line with a value like a marker -/

deriving instance DecidableEq for Piece

/-- A line with a value that looks like a marker's beginning, and with markers right behind a
    dollar, behind each other and in front of a brace. -/
def parcelLine : Text :=
  "é$Owner$\x7b\x7bBell\x7d\x7d\x7b\x7bImage(Box)\x7d\x7d\x7dü\x7b\x7bBell\x7d\x7d".toList

/-- What its variable stands for. -/
def parcelVariables : Variables := .ofPairs [("Owner".toList, "\x7b\x7bö".toList)]

/-- The pieces in front of its image. -/
def parcelFront : List Piece :=
  [⟨['é'], .ok (.literal ['é'])⟩, ⟨"$Owner".toList, .ok (.reference "Owner".toList)⟩,
    ⟨['$'], .ok (.literal ['$'])⟩, ⟨"\x7b\x7bBell\x7d\x7d".toList, .ok (.function "Bell".toList)⟩]

/-- The pieces behind it. -/
def parcelBack : List Piece :=
  [⟨"\x7dü".toList, .ok (.literal "\x7dü".toList)⟩,
    ⟨"\x7b\x7bBell\x7d\x7d".toList, .ok (.function "Bell".toList)⟩]

/-- The line of the parcel is put together at its image, and the second bell rings behind
    seven characters. -/
theorem compile_at_parcel :
    let image : Piece := ⟨"\x7b\x7bImage(Box)\x7d\x7d".toList, .ok (.image "Box".toList)⟩
    let a : Line := ⟨[], ⟨"é\x7b\x7bö$".toList, [⟨5, "Bell".toList⟩]⟩, none⟩
    let b : Line := ⟨[], ⟨"\x7dü".toList, [⟨2, "Bell".toList⟩]⟩, none⟩
    Piece.ofText parcelLine = parcelFront ++ image :: parcelBack ∧
    Line.compile parcelVariables [] parcelLine = .ok (a.joined (.image "Box".toList) b) ∧
    ∃ front c, Line.compile parcelVariables [] front = .ok c ∧
      c.content = ⟨"é\x7b\x7bö$\x7dü".toList, [⟨5, "Bell".toList⟩]⟩ := by
  intro image a b
  have hpieces : Piece.ofText parcelLine = parcelFront ++ image :: parcelBack := by decide +kernel
  have hleft : Line.compile parcelVariables [] (parcelFront.flatMap Piece.span) = .ok a := by
    decide +kernel
  have hright : Line.compile parcelVariables [] (parcelBack.flatMap Piece.span) = .ok b := by
    decide +kernel
  obtain ⟨hcut, hmeaning⟩ := compile_at_marker parcelVariables [] parcelLine
  obtain ⟨-, -, hjoined⟩ := hcut _ _ _ _ hpieces rfl trivial
  have hwhole := hjoined a b hleft hright
  have hrings : (a.joined (.image "Box".toList) b).content.invocations =
      [⟨5, "Bell".toList⟩] ++ ⟨7, "Bell".toList⟩ :: [] := by decide +kernel
  obtain ⟨before, -, -, c, -, -, hfront, hearlier, -, htext⟩ := hmeaning _ hwhole _ _ _ hrings
  refine ⟨hpieces, hwhole, before.flatMap Piece.span, c, hfront, ?_⟩
  have hcontent : c.content = ⟨c.content.text, c.content.invocations⟩ := rfl
  rw [hcontent, htext, hearlier]
  rfl

end Dialogue
