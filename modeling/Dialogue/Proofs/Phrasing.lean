import Dialogue.Proofs.Printing
import Mathlib.Data.List.Chain

/-! # Segments side by side

    A text line says its segments from left to right, and plain texts that follow each
    other are one plain text (`Segment.ofText`). So no two plain texts stand side by
    side in what it says. There are two more things that it can never say. Behind a
    reference no plain text goes on with the name, since the name goes on as far as it
    can. And in front of a marker no plain text ends with an opening brace, since the
    marker would have begun there.

    Any other sequence of well-formed segments can be said (`Segment.Neat`): it is what
    its own markup says. This is `reading_inverts_writing`. Behind both directions is
    that a character of plain text may be read by itself and put in front of what the
    rest says (`Segment.ofText_cons_plain`), wherever the lexer happens to cut. It only
    must not open a marker together with the character behind it, which is why what a
    text says is compared with the text by their first characters.
-/

namespace Dialogue

namespace Segment

/-! ### What a text says -/

/-- A segment in front of others. Plain texts are put together. -/
def before : Segment → List Segment → List Segment
  | .literal t, .literal u :: rest => .literal (t ++ u) :: rest
  | s, rest => s :: rest

/-- What a text says, with neighbouring plain texts put together. The first piece that is
    refused decides the refusal. -/
def ofText (t : Text) : Except Cause (List Segment) :=
  ((Piece.ofText t).mapM Piece.meaning).map merge

theorem merge_cons (s : Segment) (rest : List Segment) :
    merge (s :: rest) = s.before (merge rest) := by
  cases s with
  | literal t =>
    rw [merge]
    cases merge rest with
    | nil => rfl
    | cons u rest => cases u <;> rfl
  | _ => rfl

theorem before_literal_append (t u : Text) (rest : List Segment) :
    (literal (t ++ u)).before rest = (literal t).before ((literal u).before rest) := by
  cases rest with
  | nil => rfl
  | cons s rest =>
    cases s with
    | literal v => simp [before]
    | _ => rfl

theorem ofText_nil : ofText [] = .ok [] := by
  rw [ofText, Piece.ofText]
  rfl

theorem exists_of_map_eq_ok {t : Text} {f : List Segment → List Segment} {segments : List Segment}
    (h : (ofText t).map f = .ok segments) : ∃ said, ofText t = .ok said ∧ segments = f said := by
  cases hsaid : ofText t with
  | error e =>
    rw [hsaid] at h
    cases h
  | ok said =>
    rw [hsaid] at h
    exact ⟨said, rfl, (Except.ok.inj h).symm⟩

/-- A piece says its segment in front of what the rest says. -/
theorem ofText_of_piece {t rest : Text} {p : Piece} (ht : Piece.ofText t = p :: Piece.ofText rest) :
    ofText t = p.meaning >>= fun s => (ofText rest).map s.before := by
  rw [ofText, ofText, ht, List.mapM_cons]
  cases p.meaning with
  | error e => rfl
  | ok s =>
    cases (Piece.ofText rest).mapM Piece.meaning with
    | error e => rfl
    | ok said => exact congrArg Except.ok (merge_cons s said)

/-- A character of plain text is put in front of what the rest says. -/
theorem ofText_cons_plain {c : Char} {rest : Text} (hdollar : c ≠ '$')
    (hopen : c = '{' → rest.head? ≠ some '{') :
    ofText (c :: rest) = (ofText rest).map (literal [c]).before := by
  have hpiece : ∀ {d : Char} {later : Text}, d ≠ '$' → (d = '{' → later.head? ≠ some '{') →
      ofText (d :: later) = (ofText (Piece.splitPlain later).2).map
        (literal (d :: (Piece.splitPlain later).1)).before := by
    intro d later hd hlater
    have hread : Piece.ofText (d :: later) =
        ⟨d :: (Piece.splitPlain later).1, .ok (.literal (d :: (Piece.splitPlain later).1))⟩ ::
          Piece.ofText (Piece.splitPlain later).2 := by
      rw [Piece.ofText, Piece.first_eq_plain hd hlater]
      rfl
    exact ofText_of_piece hread
  rw [hpiece hdollar hopen]
  cases rest with
  | nil => rfl
  | cons d later =>
    -- Where a piece begins behind the character, the character is one by itself.
    by_cases hdollar' : d = '$'
    · rw [hdollar']
      rfl
    · by_cases hopen' : d = '{' ∧ later.head? = some '{'
      · obtain ⟨rfl, hhead⟩ := hopen'
        obtain ⟨later, rfl⟩ := List.head?_eq_some_iff.1 hhead
        rfl
      · -- Otherwise it is the beginning of one.
        rw [not_and] at hopen'
        rw [Piece.splitPlain_cons hdollar' hopen', hpiece hdollar' hopen']
        cases ofText (Piece.splitPlain later).2 with
        | error e => rfl
        | ok said => exact congrArg Except.ok (before_literal_append [c] _ said)

/-! The other pieces, each by what begins it. -/

theorem ofText_dollars (rest : Text) :
    ofText ('$' :: '$' :: rest) = (ofText rest).map (literal ['$']).before :=
  ofText_of_piece Piece.Fits.dollarPair.ofText_append

/-- A mark is put in front of what the rest says. -/
theorem ofText_print {s : Segment} {rest : Text} (hmark : s.IsMark) (hs : s.WellFormed)
    (hrest : ∀ name, s = .reference name → ∀ c ∈ rest.head?, Text.isIdentifierChar c = false) :
    ofText (s.print ++ rest) = (ofText rest).map s.before := by
  obtain ⟨p, hp, hread⟩ := Piece.exists_ofText_print hmark hs hrest
  rw [ofText_of_piece hread, hp]
  rfl

/-- A character is printed so that it is read as plain text. -/
theorem ofText_escape_singleton {c : Char} {rest : Text} (hopen : c = '{' → rest.head? ≠ some '{') :
    ofText (escape [c] ++ rest) = (ofText rest).map (literal [c]).before := by
  by_cases hdollar : c = '$'
  · rw [hdollar]
    exact ofText_dollars rest
  · have hescape : escape [c] = [c] := by simp [escape, hdollar]
    rw [hescape]
    exact ofText_cons_plain hdollar hopen

theorem head?_escape (t : Text) : (escape t).head? = t.head? := by
  cases t with
  | nil => rfl
  | cons c t => by_cases hc : c = '$' <;> simp [escape, hc]

theorem escape_ne_nil {t : Text} (hne : t ≠ []) : escape t ≠ [] := by
  obtain ⟨c, later, rfl⟩ := List.exists_cons_of_ne_nil hne
  by_cases hc : c = '$' <;> simp [escape, hc]

/-- Plain text is put in front of what the rest says, if it opens no marker within itself and
    none with the rest. -/
theorem ofText_escape {t rest : Text} (hne : t ≠ []) (hmarker : ¬ Token.markerOpen <:+: t)
    (hlast : t.getLast? = some '{' → rest.head? ≠ some '{') :
    ofText (escape t ++ rest) = (ofText rest).map (literal t).before := by
  induction t with
  | nil => exact absurd rfl hne
  | cons c t ih =>
    by_cases hend : t = []
    · rw [hend] at hlast ⊢
      refine ofText_escape_singleton fun hc => hlast ?_
      rw [hc]
      rfl
    · have hsplit : escape (c :: t) ++ rest = escape [c] ++ (escape t ++ rest) := by
        simp [escape]
      rw [List.infix_cons_iff, not_or] at hmarker
      have hlast' : t.getLast? = some '{' → rest.head? ≠ some '{' := by
        rw [List.getLast?_cons_of_ne_nil hend] at hlast
        exact hlast
      -- The next character is the one behind `c` in `t`.
      have hopen : c = '{' → (escape t ++ rest).head? ≠ some '{' := by
        intro hc hhead
        obtain ⟨d, later, rfl⟩ := List.exists_cons_of_ne_nil hend
        rw [Text.head?_append_left (escape_ne_nil hend), head?_escape] at hhead
        have hd : d = '{' := Option.some.inj hhead
        exact hmarker.1 ⟨later, by rw [hc, hd]; rfl⟩
      rw [hsplit, ofText_escape_singleton hopen, ih hend hmarker.2 hlast']
      cases ofText rest with
      | error e => rfl
      | ok said => exact congrArg Except.ok (before_literal_append [c] t said).symm

/-! ### What may stand side by side -/

/-- Markers are functions and images. -/
def IsMarker : Segment → Prop
  | .function _ | .image _ => True
  | _ => False

theorem isMarker_of_ofMarker {inner : Text} {s : Segment} (h : ofMarker inner = .ok s) :
    s.IsMarker := by
  unfold ofMarker at h
  split at h
  · cases h
    trivial
  · split at h
    · cases h
      trivial
    · cases h

/-- Whether a segment can be read as it is in front of another. -/
def Precedes : Segment → Segment → Prop
  | .literal _, .literal _ => False
  | .literal t, .function _ | .literal t, .image _ => t.getLast? ≠ some '{'
  | .reference _, .literal t => ∀ c ∈ t.head?, Text.isIdentifierChar c = false
  | _, _ => True

/-- The segments can be read as they are, one behind the other. -/
structure Neat (segments : List Segment) : Prop where
  wellFormed : ∀ s ∈ segments, s.WellFormed
  sideBySide : segments.IsChain Precedes

variable {s : Segment} {rest : List Segment}

theorem neat_nil : Neat [] := ⟨by simp, .nil⟩

theorem neat_cons_iff : Neat (s :: rest) ↔
    s.WellFormed ∧ (∀ u ∈ rest.head?, s.Precedes u) ∧ Neat rest := by
  constructor
  · rintro ⟨hwell, hchain⟩
    obtain ⟨hs, hrest⟩ := List.forall_mem_cons.1 hwell
    obtain ⟨hnext, hlater⟩ := List.isChain_cons.1 hchain
    exact ⟨hs, hnext, hrest, hlater⟩
  · rintro ⟨hs, hnext, hrest⟩
    exact ⟨List.forall_mem_cons.2 ⟨hs, hrest.wellFormed⟩,
      List.isChain_cons.2 ⟨hnext, hrest.sideBySide⟩⟩

/-- What can stand in front of the others is not put together with them. -/
theorem before_eq_cons (h : ∀ u ∈ rest.head?, s.Precedes u) : s.before rest = s :: rest := by
  cases rest with
  | nil => cases s <;> rfl
  | cons u later =>
    have hnext : s.Precedes u := h u rfl
    cases s with
    | literal t =>
      cases u with
      | literal v => exact hnext.elim
      | _ => rfl
    | _ => rfl

theorem print_ne_nil (hs : s.WellFormed) : s.print ≠ [] := by
  cases s with
  | literal t => exact escape_ne_nil hs.1
  | reference name => exact List.cons_ne_nil _ _
  | function name => simp [print, Token.markerOpen]
  | image path => simp [print, Token.markerOpen]

theorem head?_printAll_cons (hs : s.WellFormed) : (printAll (s :: rest)).head? = s.print.head? := by
  rw [printAll, List.flatMap_cons, Text.head?_append_left (print_ne_nil hs)]

/-! ### What is written is read again -/

/-- What is written behind a segment begins as nothing that the segment could take in. -/
theorem head?_printAll_of_precedes {t : Text} (hlast : t.getLast? = some '{')
    (hrest : ∀ u ∈ rest, u.WellFormed) (h : ∀ u ∈ rest.head?, (literal t).Precedes u) :
    (printAll rest).head? ≠ some '{' := by
  cases rest with
  | nil => simp [printAll]
  | cons u later =>
    have hnext : (literal t).Precedes u := h u rfl
    rw [head?_printAll_cons (hrest u List.mem_cons_self)]
    cases u with
    | literal v => exact hnext.elim
    | reference name => simp [print]
    | function name => exact absurd hlast hnext
    | image path => exact absurd hlast hnext

theorem head?_printAll_of_reference {name : Text} (hrest : ∀ u ∈ rest, u.WellFormed)
    (h : ∀ u ∈ rest.head?, (reference name).Precedes u) :
    ∀ c ∈ (printAll rest).head?, Text.isIdentifierChar c = false := by
  cases rest with
  | nil => simp [printAll]
  | cons u later =>
    have hnext : (reference name).Precedes u := h u rfl
    rw [head?_printAll_cons (hrest u List.mem_cons_self)]
    cases u with
    | literal t =>
      rw [print, head?_escape]
      exact hnext
    | reference other => simp [print, Text.isIdentifierChar]
    | function f => simp [print, Token.markerOpen, Text.isIdentifierChar]
    | image path => simp [print, Token.markerOpen, Text.isIdentifierChar]

/-- Segments that can be read as they are, are read from what is written for them. -/
theorem ofText_printAll {segments : List Segment} (h : Neat segments) :
    ofText (printAll segments) = .ok segments := by
  induction segments with
  | nil => exact ofText_nil
  | cons s rest ih =>
    obtain ⟨hs, hnext, hrest⟩ := neat_cons_iff.1 h
    have hread : ofText (s.print ++ printAll rest) = (ofText (printAll rest)).map s.before := by
      cases s with
      | literal t =>
        exact ofText_escape hs.1 hs.2 fun hlast =>
          head?_printAll_of_precedes hlast hrest.wellFormed hnext
      | reference name =>
        refine ofText_print trivial hs ?_
        intro _ _
        exact head?_printAll_of_reference hrest.wellFormed hnext
      | function name => exact ofText_print trivial hs (by simp)
      | image path => exact ofText_print trivial hs (by simp)
    rw [printAll, List.flatMap_cons, ← printAll, hread, ih hrest]
    exact congrArg Except.ok (before_eq_cons hnext)

/-! ### Nothing else is read -/

/-- What a text says can be read as it is, and it is written with the same first character
    as the text. -/
structure IsReading (t : Text) (segments : List Segment) : Prop where
  neat : Neat segments
  head : (printAll segments).head? = t.head?

variable {t : Text} {c : Char}

/-- What may follow a plain text depends on its end alone. -/
theorem Precedes.cons {u : Text} (hu : u ≠ []) {v : Segment} (h : (literal u).Precedes v) :
    (literal (c :: u)).Precedes v := by
  have hlast : (c :: u).getLast? = u.getLast? := List.getLast?_cons_of_ne_nil hu
  cases v with
  | literal w => exact h
  | reference name => trivial
  | function name => exact fun hbrace => h (hlast.symm.trans hbrace)
  | image path => exact fun hbrace => h (hlast.symm.trans hbrace)

/-- A segment that can stand in front of what a text says. -/
theorem IsReading.cons (h : IsReading t rest) (hs : s.WellFormed)
    (hnext : ∀ u ∈ rest.head?, s.Precedes u) {whole : Text} (hhead : s.print.head? = whole.head?) :
    IsReading whole (s.before rest) := by
  rw [before_eq_cons hnext]
  exact ⟨neat_cons_iff.2 ⟨hs, hnext, h.neat⟩, (head?_printAll_cons hs).trans hhead⟩

/-- The first character of what a text says is that of the text. -/
theorem IsReading.head_cons (h : IsReading t (s :: rest)) : s.print.head? = t.head? :=
  (head?_printAll_cons (neat_cons_iff.1 h.neat).1).symm.trans h.head

/-- A character of plain text joins what the text behind it says, unless it opens a marker
    with it. -/
theorem IsReading.plain (h : IsReading t rest) (hopen : c = '{' → t.head? ≠ some '{') :
    IsReading (c :: t) ((literal [c]).before rest) := by
  have hsingle : (literal [c]).WellFormed := by
    refine ⟨by simp, ?_⟩
    intro hmarker
    exact Nat.not_succ_le_self 1 hmarker.length_le
  have hhead : (literal [c]).print.head? = (c :: t).head? := head?_escape [c]
  -- A marker that follows begins with a brace.
  have hbrace : t.head? = some '{' → [c].getLast? ≠ some '{' := by
    intro hnext hlast
    exact hopen (Option.some.inj hlast) hnext
  cases rest with
  | nil => exact h.cons hsingle (by simp) hhead
  | cons s later =>
    have hfirst := h.head_cons
    cases s with
    | literal u =>
      obtain ⟨⟨hne, hmarker⟩, hnext, hlater⟩ := neat_cons_iff.1 h.neat
      have hjoined : (literal (c :: u)).WellFormed := by
        refine ⟨List.cons_ne_nil c u, ?_⟩
        rw [List.infix_cons_iff, not_or]
        refine ⟨?_, hmarker⟩
        rintro ⟨rest, hbegin⟩
        obtain ⟨hc, hu⟩ := List.cons.inj hbegin
        rw [print, head?_escape, ← hu] at hfirst
        exact hopen hc.symm hfirst.symm
      have hwhole : (literal [c]).before (literal u :: later) = literal (c :: u) :: later := rfl
      rw [hwhole]
      refine ⟨neat_cons_iff.2 ⟨hjoined, ?_, hlater⟩, ?_⟩
      · intro v hv
        exact (hnext v hv).cons hne
      · rw [head?_printAll_cons hjoined]
        exact head?_escape (c :: u)
    | reference name => exact h.cons hsingle (by rintro u ⟨⟩; trivial) hhead
    | function name => exact h.cons hsingle (by rintro u ⟨⟩; exact hbrace hfirst.symm) hhead
    | image path => exact h.cons hsingle (by rintro u ⟨⟩; exact hbrace hfirst.symm) hhead

/-- A name is the longest that there is. -/
theorem IsReading.reference {name : Text} (h : IsReading t rest)
    (hname : Text.isIdentifier name = true)
    (hend : ∀ c ∈ t.head?, Text.isIdentifierChar c = false) :
    IsReading ('$' :: (name ++ t)) ((Segment.reference name).before rest) := by
  have hnext : ∀ u ∈ rest.head?, (Segment.reference name).Precedes u := by
    intro u hu
    obtain ⟨later, rfl⟩ := List.head?_eq_some_iff.1 hu
    cases u with
    | literal v =>
      have hfirst := h.head_cons
      rw [print, head?_escape] at hfirst
      intro c hc
      exact hend c (hfirst ▸ hc)
    | _ => trivial
  have hs : (Segment.reference name).WellFormed := hname
  exact h.cons hs hnext rfl

/-- Whatever may follow a marker. -/
theorem IsReading.marker (h : IsReading t rest) (hmarker : s.IsMarker) (hs : s.WellFormed)
    (later : Text) : IsReading (Token.markerOpen ++ later) (s.before rest) := by
  cases s with
  | literal u => exact hmarker.elim
  | reference name => exact hmarker.elim
  | function name => exact h.cons hs (fun _ _ => trivial) rfl
  | image path => exact h.cons hs (fun _ _ => trivial) rfl

/-- Plain text is taken up character by character. -/
theorem IsReading.plainText {span : Text} (h : IsReading t rest) (hne : span ≠ [])
    (hplain : span.IsPlain t) : IsReading (span ++ t) ((literal span).before rest) := by
  induction span with
  | nil => exact absurd rfl hne
  | cons c span ih =>
    obtain ⟨hwhole, hlater⟩ := Text.isPlain_cons_iff.1 hplain
    obtain ⟨-, hopen⟩ := Text.not_opens_cons_iff.1 hwhole
    by_cases hend : span = []
    · rw [hend] at hopen ⊢
      exact h.plain hopen
    · have hjoined := (ih hend hlater).plain hopen
      rwa [← before_literal_append] at hjoined

/-- A piece in front of what the text behind it says. -/
theorem IsReading.of_fits {p : Piece} (h : IsReading t rest) (hp : p.Fits t)
    (hs : p.meaning = .ok s) : IsReading (p.span ++ t) (s.before rest) := by
  -- A dollar that begins no reference is plain text.
  have hdollar : IsReading ('$' :: t) ((literal ['$']).before rest) := h.plain (by simp)
  have hwell := hp.wellFormed hs
  cases hp with
  | plainText hne hplain hend =>
    cases hs
    exact h.plainText hne hplain
  | dollarPair =>
    cases hs
    exact ⟨hdollar.neat, hdollar.head⟩
  | loneDollar hother hend =>
    cases hs
    exact hdollar
  | reference hname hend =>
    cases hs
    exact h.reference hname hend
  | @closed inner _ hfirst =>
    show IsReading (Token.markerOpen ++ inner ++ Token.markerClose ++ t) (s.before rest)
    rw [List.append_assoc, List.append_assoc]
    exact h.marker (isMarker_of_ofMarker hs) hwell _
  | unclosed hnone => cases hs

/-- Whatever a text says can be read as it is. -/
theorem isReading_of_ofText {t : Text} {segments : List Segment} (h : ofText t = .ok segments) :
    IsReading t segments := by
  have htiling := Piece.tiling_ofText t
  generalize Piece.ofText t = ps at htiling
  induction htiling generalizing segments with
  | nil =>
    rw [ofText_nil] at h
    cases h
    exact ⟨neat_nil, rfl⟩
  | cons hp hps ih =>
    rw [ofText_of_piece hp.ofText_append, Except.bind_eq_ok_iff] at h
    obtain ⟨s, hs, h⟩ := h
    obtain ⟨said, hsaid, rfl⟩ := exists_of_map_eq_ok h
    exact (ih hsaid).of_fits hp hs

/-- Segments can be read as they are exactly where their own markup says them. -/
theorem neat_iff {segments : List Segment} :
    Neat segments ↔ ofText (printAll segments) = .ok segments :=
  ⟨ofText_printAll, fun h => (isReading_of_ofText h).neat⟩

instance : DecidablePred Neat := fun _ => decidable_of_iff' _ neat_iff

end Segment

/-- What texts say is what can be read as it is, and no more: well-formed segments of which
    no two plain texts stand side by side, no plain text goes on with the name in front of
    it, and none ends with the brace that would have begun the marker behind it. And all
    such segments are what their own markup says. -/
theorem reading_inverts_writing :
    (∀ segments : List Segment,
      (∃ t : Text, Segment.ofText t = .ok segments) ↔ Segment.Neat segments) ∧
    ∀ segments : List Segment, Segment.Neat segments →
      Segment.ofText (Segment.printAll segments) = .ok segments := by
  refine ⟨fun segments => ⟨?_, fun h => ?_⟩, fun segments h => Segment.ofText_printAll h⟩
  · rintro ⟨t, ht⟩
    exact (Segment.isReading_of_ofText ht).neat
  · exact ⟨Segment.printAll segments, Segment.ofText_printAll h⟩

/-! Segments that are nearly others: dollars on all sides of a name, a brace in front of a
    name and one behind a marker, a function called as images are, and a path that ends with
    a brace. -/

/-- The segments. -/
def thornySegments : List Segment :=
  [.literal "$\x7b$\x7b".toList, .reference "Gold".toList, .literal "$ \x7d\x7d".toList,
    .function "Image".toList, .literal "\x7dé".toList, .reference "_1".toList,
    .reference "Of".toList, .image "(\x7b\x7b $x\x7d".toList, .function "f".toList]

theorem reading_thornySegments :
    Segment.Neat thornySegments ∧
    Segment.ofText (Segment.printAll thornySegments) = .ok thornySegments := by
  have hneat : Segment.Neat thornySegments := by decide +kernel
  exact ⟨hneat, reading_inverts_writing.2 thornySegments hneat⟩

end Dialogue
