import Dialogue.Markup.Piece

/-! # How a text is cut into pieces

    The pieces of a text line are cut off one behind the other, the faulty ones like all
    others, until nothing is left. What may be cut off next is said here by the texts alone
    (`Piece.Fits`), without the scanning that finds it. A piece that stands in front of
    `rest` is one of these:

    - plain text, which ends where the text does or where something opens for the first time;
    - a dollar, doubled or by itself;
    - a dollar with the longest name behind it;
    - a marker up to the first closing braces;
    - opening braces that nothing closes, up to the end of the text.

    The lexer cuts off what fits, and whatever fits is cut off (`Piece.fits_iff`). So there is
    one way to lay pieces over a text such that each of them fits in front of the later ones
    (`Piece.tiling_iff`). What a piece of a text says, why it is refused and how it is read
    together with another text all follow by going through the kinds of pieces once.
-/

namespace Dialogue

/-! ### Plain text -/

namespace Text

/-- The text begins as no plain text does: with a dollar or with opening braces. -/
def Opens (t : Text) : Prop := ['$'] <+: t ∨ Token.markerOpen <+: t

variable {c : Char} {span rest : Text}

theorem opens_cons_iff : Opens (c :: rest) ↔ c = '$' ∨ c = '{' ∧ rest.head? = some '{' := by
  have hbrace : ['{'] <+: rest ↔ rest.head? = some '{' := by
    cases rest with
    | nil => simp
    | cons d later => simp [eq_comm]
  simp only [Opens, Token.markerOpen, List.cons_prefix_cons, List.nil_prefix, and_true, hbrace,
    eq_comm]

theorem not_opens_cons_iff :
    ¬ Opens (c :: rest) ↔ c ≠ '$' ∧ (c = '{' → rest.head? ≠ some '{') := by
  rw [opens_cons_iff, not_or, not_and]

theorem head?_ne_some (h : ∀ later, rest = c :: later → False) : rest.head? ≠ some c := by
  intro hhead
  obtain ⟨later, hlater⟩ := List.head?_eq_some_iff.1 hhead
  exact h later hlater

/-- Nothing opens within the span, and neither where it meets `rest`. -/
def IsPlain (span rest : Text) : Prop := ∀ v, v <:+ span → v ≠ [] → ¬ Opens (v ++ rest)

theorem isPlain_nil (rest : Text) : IsPlain [] rest := by
  intro v hv hne
  exact absurd (List.suffix_nil.1 hv) hne

theorem isPlain_cons_iff :
    IsPlain (c :: span) rest ↔ ¬ Opens (c :: (span ++ rest)) ∧ IsPlain span rest := by
  constructor
  · intro h
    refine ⟨h _ (List.suffix_refl _) (List.cons_ne_nil _ _), ?_⟩
    intro v hv
    exact h v (hv.trans (List.suffix_cons _ _))
  · rintro ⟨hwhole, hlater⟩ v hv hne
    rcases List.suffix_cons_iff.1 hv with rfl | hv
    · exact hwhole
    · exact hlater v hv hne

theorem IsPlain.dollar_not_mem (h : IsPlain span rest) : '$' ∉ span := by
  intro hmem
  obtain ⟨front, back, rfl⟩ := List.append_of_mem hmem
  exact h _ (List.suffix_append _ _) (List.cons_ne_nil _ _) (opens_cons_iff.2 (.inl rfl))

theorem IsPlain.not_markerOpen_infix (h : IsPlain span rest) : ¬ Token.markerOpen <:+: span := by
  rintro ⟨front, back, rfl⟩
  rw [List.append_assoc] at h
  exact h _ (List.suffix_append _ _) (List.cons_ne_nil _ _) (opens_cons_iff.2 (.inr ⟨rfl, rfl⟩))

end Text

/-- A closed marker is refused for what stands in it. -/
theorem Segment.eq_of_ofMarker_eq_error {inner : Text} {cause : Cause}
    (h : ofMarker inner = .error cause) : cause = .malformedMarker inner := by
  unfold ofMarker at h
  split at h
  · cases h
  · split at h
    · cases h
    · cases h
      rfl

namespace Piece

/-! ### What fits in front of the rest -/

/-- Whether a piece may be cut off in front of `rest`. -/
inductive Fits : Piece → Text → Prop
  /-- Plain text. -/
  | plainText {span rest : Text} (hne : span ≠ []) (hplain : span.IsPlain rest)
      (hend : rest = [] ∨ rest.Opens) : Fits ⟨span, .ok (.literal span)⟩ rest
  /-- A doubled dollar. -/
  | dollarPair {rest : Text} : Fits ⟨['$', '$'], .ok (.literal ['$'])⟩ rest
  /-- A dollar that no name and no other dollar follows. -/
  | loneDollar {rest : Text} (hdollar : rest.head? ≠ some '$')
      (hend : ∀ c ∈ rest.head?, Text.isIdentifierChar c = false) :
      Fits ⟨['$'], .ok (.literal ['$'])⟩ rest
  /-- A name, which goes on as far as it can. -/
  | reference {name rest : Text} (hname : Text.isIdentifier name = true)
      (hend : ∀ c ∈ rest.head?, Text.isIdentifierChar c = false) :
      Fits ⟨'$' :: name, .ok (.reference name)⟩ rest
  /-- A marker, which ends as soon as it can. -/
  | closed {inner rest : Text} (hfirst : ¬ Token.markerClose <:+: inner ++ ['}']) :
      Fits ⟨Token.markerOpen ++ inner ++ Token.markerClose, Segment.ofMarker inner.trim⟩ rest
  /-- A marker that is never closed. -/
  | unclosed {inner : Text} (hnone : ¬ Token.markerClose <:+: inner) :
      Fits ⟨Token.markerOpen ++ inner, .error .unterminatedMarker⟩ []

variable {p : Piece} {c : Char} {rest : Text}

theorem isPlain_splitPlain (t : Text) : (splitPlain t).1.IsPlain (splitPlain t).2 := by
  fun_induction splitPlain t with
  | case1 => exact Text.isPlain_nil _
  | case2 => exact Text.isPlain_nil _
  | case3 => exact Text.isPlain_nil _
  | case4 c rest hdollar hopen parts ih =>
    -- The character and what is taken along with it are all of the text up to there.
    rw [Text.isPlain_cons_iff, splitPlain_append, Text.not_opens_cons_iff]
    refine ⟨⟨hdollar, ?_⟩, ih⟩
    intro hc
    exact Text.head?_ne_some fun later => hopen later hc

theorem opens_splitPlain (t : Text) : (splitPlain t).2 = [] ∨ (splitPlain t).2.Opens := by
  fun_induction splitPlain t with
  | case1 => exact .inl rfl
  | case2 rest => exact .inr (.inl (List.prefix_append ['$'] rest))
  | case3 rest => exact .inr (.inr (List.prefix_append Token.markerOpen rest))
  | case4 c rest hdollar hopen parts ih => exact ih

theorem fits_plain (h : ¬ Text.Opens (c :: rest)) : (plain c rest).1.Fits (plain c rest).2 := by
  have hplain : Text.IsPlain (c :: (splitPlain rest).1) (splitPlain rest).2 := by
    rw [Text.isPlain_cons_iff, splitPlain_append]
    exact ⟨h, isPlain_splitPlain rest⟩
  exact .plainText (List.cons_ne_nil _ _) hplain (opens_splitPlain rest)

theorem fits_dollar (rest : Text) : (dollar rest).1.Fits (dollar rest).2 := by
  unfold dollar
  split
  · exact .dollarPair
  · next hrest =>
    have hend : ∀ c ∈ (rest.dropWhile Text.isIdentifierChar).head?,
        Text.isIdentifierChar c = false := by
      intro c hc
      have hstop := List.head?_dropWhile_not Text.isIdentifierChar rest
      rw [hc] at hstop
      simpa using hstop
    have hwhole := List.takeWhile_append_dropWhile (p := Text.isIdentifierChar) (l := rest)
    by_cases hnil : rest.takeWhile Text.isIdentifierChar = []
    · -- Without a name, what followed the dollar is all of the rest.
      rw [hnil, List.nil_append] at hwhole
      rw [hnil, hwhole]
      rw [hwhole] at hend
      exact .loneDollar (Text.head?_ne_some hrest) hend
    · dsimp only
      rw [if_neg (by simpa using hnil)]
      have hchars : ∀ c ∈ rest.takeWhile Text.isIdentifierChar, Text.isIdentifierChar c = true :=
        List.all_eq_true.1 List.all_takeWhile
      exact .reference (Text.isIdentifier_iff.2 ⟨hnil, hchars⟩) hend

theorem fits_marker (rest : Text) : (marker rest).1.Fits (marker rest).2 := by
  unfold marker
  split
  · next hsplit => exact .unclosed (Text.splitFirst?_eq_none_iff.1 hsplit)
  · next inner after hsplit =>
    exact .closed (Text.not_infix_append_of_splitFirst? (by decide) hsplit)

/-- What is cut off fits in front of what is left. -/
theorem fits_first (c : Char) (rest : Text) : (first c rest).1.Fits (first c rest).2 := by
  unfold first
  split
  · exact fits_dollar _
  · exact fits_marker _
  · next hdollar hopen =>
    refine fits_plain (Text.not_opens_cons_iff.2 ⟨hdollar, ?_⟩)
    intro hc
    exact Text.head?_ne_some fun later => hopen later hc

/-- Each piece of a text fits in front of what is behind it there. -/
theorem exists_fits_of_mem_ofText {t : Text} (h : p ∈ ofText t) : ∃ rest, p.Fits rest := by
  obtain ⟨c, rest, -, rfl⟩ := exists_first_of_mem_ofText h
  exact ⟨(first c rest).2, fits_first c rest⟩

/-! ### What fits is cut off -/

/-- What opens no variable and no marker is plain text. -/
theorem first_eq_plain {c : Char} {rest : Text} (hdollar : c ≠ '$')
    (hopen : c = '{' → rest.head? ≠ some '{') : first c rest = plain c rest := by
  unfold first
  split
  · exact absurd rfl hdollar
  · exact absurd rfl (hopen rfl)
  · rfl

/-- Plain text behind a character is taken along, up to what the character would be
    followed by if it stood alone. -/
theorem splitPlain_cons {c : Char} {rest : Text} (hdollar : c ≠ '$')
    (hopen : c = '{' → rest.head? ≠ some '{') :
    splitPlain (c :: rest) = (c :: (splitPlain rest).1, (splitPlain rest).2) := by
  rw [splitPlain]
  · intro heq
    exact hdollar heq
  · intro later hc hrest
    exact hopen hc (by rw [hrest]; rfl)

/-- Plain text is taken as far as it goes. -/
theorem splitPlain_of_isPlain {span : Text} (hplain : span.IsPlain rest)
    (hend : rest = [] ∨ rest.Opens) : splitPlain (span ++ rest) = (span, rest) := by
  induction span with
  | nil =>
    rcases hend with rfl | ⟨later, rfl⟩ | ⟨later, rfl⟩
    · rfl
    · rfl
    · rfl
  | cons c span ih =>
    obtain ⟨hwhole, hlater⟩ := Text.isPlain_cons_iff.1 hplain
    obtain ⟨hdollar, hopen⟩ := Text.not_opens_cons_iff.1 hwhole
    rw [List.cons_append, splitPlain_cons hdollar hopen, ih hlater]

/-- A dollar takes the identifier behind it, and nothing else. -/
theorem dollar_append {name rest : Text} (hname : ∀ c ∈ name, Text.isIdentifierChar c = true)
    (hrest : ∀ c ∈ rest.head?, Text.isIdentifierChar c = false)
    (hdollar : name = [] → rest.head? ≠ some '$') :
    dollar (name ++ rest) =
      (⟨'$' :: name, .ok (if name.isEmpty then .literal ['$'] else .reference name)⟩, rest) := by
  have htake : rest.takeWhile Text.isIdentifierChar = [] := by
    cases rest with
    | nil => rfl
    | cons c rest => exact List.takeWhile_cons_of_neg (by simp [hrest c rfl])
  have hdrop : rest.dropWhile Text.isIdentifierChar = rest := by
    cases rest with
    | nil => rfl
    | cons c rest => exact List.dropWhile_cons_of_neg (by simp [hrest c rfl])
  unfold dollar
  split
  · next later heq =>
    -- No second dollar follows, neither in the name nor behind it.
    cases name with
    | nil => exact absurd (congrArg List.head? heq) (hdollar rfl)
    | cons c name =>
      have hc : c = '$' := (List.cons.inj heq).1
      have hchar := hname c List.mem_cons_self
      rw [hc] at hchar
      exact absurd hchar (by decide)
  · rw [List.takeWhile_append_of_pos hname, List.dropWhile_append_of_pos hname, htake, hdrop,
      List.append_nil]

/-- The lexer comes to the end of just that span. -/
theorem Fits.exists_first (h : p.Fits rest) :
    ∃ c more, p.span ++ rest = c :: more ∧ first c more = (p, rest) := by
  cases h with
  | @plainText span _ hne hplain hend =>
    obtain ⟨c, span, rfl⟩ := List.exists_cons_of_ne_nil hne
    obtain ⟨hwhole, hlater⟩ := Text.isPlain_cons_iff.1 hplain
    obtain ⟨hdollar, hopen⟩ := Text.not_opens_cons_iff.1 hwhole
    refine ⟨c, span ++ rest, rfl, ?_⟩
    rw [first_eq_plain hdollar hopen, plain, splitPlain_of_isPlain hlater hend]
  | dollarPair => exact ⟨'$', '$' :: rest, rfl, rfl⟩
  | loneDollar hdollar hend =>
    have hread : dollar ([] ++ rest) = _ := dollar_append (by simp) hend fun _ => hdollar
    exact ⟨'$', rest, rfl, hread⟩
  | @reference name _ hname hend =>
    obtain ⟨hne, hchars⟩ := Text.isIdentifier_iff.1 hname
    refine ⟨'$', name ++ rest, rfl, ?_⟩
    show dollar (name ++ rest) = _
    rw [dollar_append hchars hend fun hnil => absurd hnil hne, List.isEmpty_eq_false_iff.2 hne]
    rfl
  | @closed inner _ hfirst =>
    have hsplit : Text.splitFirst? Token.markerClose (inner ++ (Token.markerClose ++ rest)) =
        some (inner, rest) := Text.splitFirst?_append rest (by decide) hfirst
    refine ⟨'{', '{' :: (inner ++ (Token.markerClose ++ rest)), by simp [Token.markerOpen], ?_⟩
    show marker (inner ++ (Token.markerClose ++ rest)) = _
    rw [marker, hsplit]
  | @unclosed inner hnone =>
    refine ⟨'{', '{' :: inner, by simp [Token.markerOpen], ?_⟩
    show marker inner = _
    rw [marker, Text.splitFirst?_eq_none_iff.2 hnone]

/-- The pieces that fit are those that are cut off. -/
theorem fits_iff :
    p.Fits rest ↔ ∃ c more, p.span ++ rest = c :: more ∧ first c more = (p, rest) := by
  constructor
  · exact Fits.exists_first
  · rintro ⟨c, more, -, hfirst⟩
    have h := fits_first c more
    rwa [hfirst] at h

theorem Fits.ofText_append (h : p.Fits rest) : ofText (p.span ++ rest) = p :: ofText rest := by
  obtain ⟨c, more, hwhole, hfirst⟩ := h.exists_first
  rw [hwhole, ofText_cons, hfirst]

theorem Fits.span_ne_nil (h : p.Fits rest) : p.span ≠ [] := by
  cases h with
  | plainText hne hplain hend => exact hne
  | _ => simp [Token.markerOpen]

/-- Behind opening braces, the piece goes on to the first closing ones or to the end. -/
theorem Fits.of_markerOpen {behind : Text} (h : p.Fits rest)
    (hopen : p.span ++ rest = Token.markerOpen ++ behind) :
    (∃ inner, p = ⟨Token.markerOpen ++ inner ++ Token.markerClose, Segment.ofMarker inner.trim⟩ ∧
      behind = inner ++ Token.markerClose ++ rest ∧ ¬ Token.markerClose <:+: inner ++ ['}']) ∨
    p = ⟨Token.markerOpen ++ behind, .error .unterminatedMarker⟩ ∧ rest = [] ∧
      ¬ Token.markerClose <:+: behind := by
  cases h with
  | @plainText span _ hne hplain hend =>
    -- The braces would begin within plain text, or where it meets the rest.
    have hopens : Text.Opens (span ++ rest) := by
      rw [show span ++ rest = _ from hopen]
      exact .inr (List.prefix_append _ _)
    exact absurd hopens (hplain span (List.suffix_refl span) hne)
  | @closed inner _ hfirst =>
    rw [List.append_assoc, List.append_assoc] at hopen
    have hbehind := List.append_cancel_left hopen
    exact .inl ⟨inner, rfl, by rw [← hbehind, List.append_assoc], hfirst⟩
  | @unclosed inner hnone =>
    rw [List.append_nil] at hopen
    obtain rfl := List.append_cancel_left hopen
    exact .inr ⟨rfl, rfl, hnone⟩
  | _ => cases hopen

/-! ### Whole texts -/

/-- The pieces lie over the text one behind the other, and each fits in front of the rest. -/
inductive Tiling : List Piece → Text → Prop
  | nil : Tiling [] []
  | cons {p : Piece} {ps : List Piece} {rest : Text} (hp : p.Fits rest) (hps : Tiling ps rest) :
      Tiling (p :: ps) (p.span ++ rest)

theorem tiling_ofText (t : Text) : Tiling (ofText t) t := by
  fun_induction ofText t with
  | case1 => exact .nil
  | case2 c rest ih =>
    have hcons := Tiling.cons (fits_first c rest) ih
    rwa [first_span] at hcons

theorem Tiling.eq_ofText {ps : List Piece} {t : Text} (h : Tiling ps t) : ps = ofText t := by
  induction h with
  | nil => simp [ofText]
  | cons hp hps ih => rw [hp.ofText_append, ih]

/-- Pieces can be laid over a text in one way. -/
theorem tiling_iff {ps : List Piece} {t : Text} : Tiling ps t ↔ ps = ofText t := by
  constructor
  · exact Tiling.eq_ofText
  · rintro rfl
    exact tiling_ofText t

theorem Tiling.flatMap_span {ps : List Piece} {t : Text} (h : Tiling ps t) :
    ps.flatMap span = t := by
  rw [h.eq_ofText, flatMap_span_ofText]

end Piece

end Dialogue
