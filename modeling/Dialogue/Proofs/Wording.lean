import Dialogue.Proofs.Blocks
import Dialogue.Proofs.Cutting
import Dialogue.Script.Printer

/-! # What lines and markers can say

    The words that are taken out of a script keep the form that their place in
    it asks for. A name, a label, a target or a path is cut out of one line and
    trimmed, so it stands on one line without blanks around it. Some words also
    never hold the mark that would have ended them: a target holds no arrow,
    since the last one counts, and a path holds no closing braces, since the
    first ones count.

    `Item.wellFormed_of_mem_tokens` says so of the tokens of a source, and
    `Piece.wellFormed_of_mem_ofText` of the segments of a text line.
-/

namespace Dialogue

/-- What is cut out of a line and trimmed stands on one line. -/
theorem Text.isInline_trim {t u : Text} (ht : '\n' ∉ t) (hu : u <:+: t) : u.trim.IsInline := by
  refine ⟨isTrimmed_trim u, ?_⟩
  intro h
  exact ht (((infix_trim u).trans hu).mem h)

/-! ### Tokens -/

namespace Token

variable {t rest body name : Text}

theorem suffix_of_headerRest? (h : headerRest? t = some rest) : rest <:+ t := by
  simp only [headerRest?, Option.bind_eq_bind, Option.bind_eq_some_iff] at h
  obtain ⟨inner, hinner, found, hfound, hrest⟩ := h
  split at hrest
  · cases hrest
  · cases hrest
    exact (Text.suffix_of_stripStart? hfound).trans
      ((Text.suffix_trimStart inner).trans (Text.suffix_of_stripStart? hinner))

/-- The name of a header stands on one line and holds no parenthesis. -/
theorem wellFormed_header (ht : '\n' ∉ t) (hrest : headerRest? t = some rest)
    (hname : headerName? rest = some name) : (header name).WellFormed := by
  simp only [headerName?, Option.bind_eq_bind, Option.bind_eq_some_iff] at hname
  obtain ⟨opened, hopened, unmarked, hunmarked, inner, hinner, hname⟩ := hname
  -- Each cut leaves a part of what was there before it.
  have hpart : inner <:+: t :=
    ((Text.prefix_of_stripEnd? hinner).trans (Text.prefix_trimEnd unmarked)).isInfix.trans <|
      (Text.prefix_of_stripEnd? hunmarked).isInfix.trans <|
      (Text.suffix_of_stripStart? hopened).isInfix.trans <|
      ((Text.suffix_trimStart rest).trans (suffix_of_headerRest? hrest)).isInfix
  split at hname
  · cases hname
  · next hgood =>
    cases hname
    simp only [Bool.or_eq_true, List.isEmpty_iff, List.any_eq_true, beq_iff_eq, not_or,
      not_exists, not_and] at hgood
    obtain ⟨hne, hparens⟩ := hgood
    refine ⟨hne, Text.isInline_trim ht hpart, ?_, ?_⟩
    · intro h
      exact (hparens _ h).1 rfl
    · intro h
      exact (hparens _ h).2 rfl

theorem wellFormed_speaker (ht : '\n' ∉ t) (h : speakerName? t = some name) :
    (speaker name).WellFormed := by
  simp only [speakerName?, Option.bind_eq_bind, Option.bind_eq_some_iff] at h
  obtain ⟨opened, hopened, inner, hinner, hname⟩ := h
  cases hname
  exact Text.isInline_trim ht
    ((Text.prefix_of_stripEnd? hinner).isInfix.trans (Text.suffix_of_stripStart? hopened).isInfix)

theorem suffix_of_choiceBody? (h : choiceBody? t = some body) : body <:+ t := by
  unfold choiceBody? at h
  split at h
  · cases h
    exact List.nil_suffix
  · split at h
    · cases h
      exact List.suffix_cons _ _
    · cases h
  · cases h

/-- The label and the target stand on one line, and the target holds no arrow,
    since the last one counts. -/
theorem wellFormed_choice {label target : Text} (ht : '\n' ∉ t)
    (hbody : choiceBody? t = some body) (h : choiceParts? body = some (label, target)) :
    (choice label target).WellFormed := by
  simp only [choiceParts?, Option.bind_eq_bind, Option.bind_eq_some_iff] at h
  obtain ⟨⟨before, after⟩, hsplit, h⟩ := h
  dsimp only at h
  have hwhole : body.trim <:+: t :=
    (Text.infix_trim body).trans (suffix_of_choiceBody? hbody).isInfix
  have hparts : body.trim = before ++ arrow ++ after := Text.eq_of_splitLast? hsplit
  split at h
  · cases h
  · next hne =>
    cases h
    simp only [Bool.or_eq_true, List.isEmpty_iff, not_or] at hne
    have hbefore : before <:+: t := by
      refine List.IsInfix.trans ?_ hwhole
      rw [hparts, List.append_assoc]
      exact (List.prefix_append _ _).isInfix
    have hafter : after <:+: t := by
      refine List.IsInfix.trans ?_ hwhole
      rw [hparts]
      exact (List.suffix_append _ _).isInfix
    refine ⟨hne.1, Text.isInline_trim ht hbefore, hne.2, Text.isInline_trim ht hafter, ?_⟩
    intro harrow
    exact Text.not_infix_of_splitLast? (by decide) hsplit (harrow.trans (Text.infix_trim after))

/-- A line that begins with a header marker is taken for one, blanks or not. -/
theorem headerRest?_eq_some {blanks : Text} (hblanks : ∀ c ∈ blanks, Text.isBlank c = true)
    (hrest : ∀ c ∈ rest.head?, Text.isIdentifierChar c = false) :
    headerRest? (markerOpen ++ blanks ++ headerTag ++ rest) = some rest := by
  -- The word is found behind the blanks, as `C` is none of them.
  have htrim : (blanks ++ headerTag ++ rest).trimStart = headerTag ++ rest := by
    rw [Text.trimStart, List.append_assoc, List.dropWhile_append_of_pos hblanks]
    exact Text.trimStart_eq_self (by simp [headerTag, Text.isBlank])
  have hany : rest.head?.any Text.isIdentifierChar = false := by
    cases hhead : rest.head? with
    | none => rfl
    | some c => exact hrest c hhead
  simp only [headerRest?, List.append_assoc, Text.stripStart?_append, Option.bind_eq_bind,
    Option.bind_some]
  rw [← List.append_assoc blanks, htrim, Text.stripStart?_append, Option.bind_some, hany]
  rfl

/-! A line that is taken as a text begins as nothing else. -/

theorem not_beginsHeader (h : headerRest? t = none) : ¬ BeginsHeader t := by
  intro hbegins
  obtain ⟨blanks, rest, rfl, hblanks, hrest⟩ := hbegins
  rw [headerRest?_eq_some hblanks hrest] at h
  cases h

theorem not_isBracketed (h : speakerName? t = none) : ¬ IsBracketed t := by
  intro hbracketed
  obtain ⟨inner, rfl⟩ := hbracketed
  have hfound : speakerName? ('[' :: inner ++ [']']) = some inner.trim := by
    have hopened : Text.stripStart? ['['] ('[' :: inner ++ [']']) = some (inner ++ [']']) :=
      Text.stripStart?_append ['['] (inner ++ [']'])
    simp only [speakerName?, hopened, Text.stripEnd?_append, Option.bind_eq_bind, Option.bind_some]
  rw [hfound] at h
  cases h

theorem not_isDashed (h : choiceBody? t = none) : ¬ IsDashed t := by
  intro hdashed
  rcases hdashed with rfl | ⟨rest, rfl | rfl⟩ <;> cases h

/-- Whatever a significant line says, it can say. -/
theorem wellFormed_of_ofLine {token : Token} (ht : t.IsInline)
    (hsignificant : SourceLine.isSignificant t = true) (h : ofLine t = .ok token) :
    token.WellFormed := by
  unfold ofLine at h
  split at h
  · next hrest =>
    split at h
    · next hname =>
      cases h
      exact wellFormed_header ht.2 hrest hname
    · cases h
  · next hheader =>
    split at h
    · next hname =>
      cases h
      exact wellFormed_speaker ht.2 hname
    · next hspeaker =>
      split at h
      · next hbody =>
        split at h
        · next hparts =>
          cases h
          exact wellFormed_choice ht.2 hbody hparts
        · cases h
      · next hchoice =>
        cases h
        simp only [SourceLine.isSignificant, Bool.and_eq_true, Bool.not_eq_true',
          List.isEmpty_eq_false_iff, bne_iff_ne] at hsignificant
        exact ⟨hsignificant.1, ht, hsignificant.2, not_beginsHeader hheader,
          not_isBracketed hspeaker, not_isDashed hchoice⟩

end Token

/-- A line of a source is read trimmed, and it says something. -/
theorem SourceLine.isInline_of_mem_ofSource {source : Text} {l : SourceLine}
    (h : l ∈ ofSource source) : l.text.IsInline ∧ isSignificant l.text = true := by
  obtain ⟨hmem, hsignificant⟩ := List.mem_filter.1 h
  obtain ⟨⟨physical, number⟩, hphysical, rfl⟩ := List.mem_map.1 hmem
  have hline : physical ∈ source.lines := List.fst_mem_of_mem_zipIdx hphysical
  exact ⟨Text.isInline_trim (Text.newline_not_mem_of_mem_lines hline) (List.infix_refl _),
    hsignificant⟩

/-- All tokens of a source are well-formed. -/
theorem Item.wellFormed_of_mem_tokens {source : Text} {t : Token}
    (h : t ∈ tokens (ofSource source)) : t.WellFormed := by
  obtain ⟨i, hi, ht⟩ := List.mem_filterMap.1 h
  obtain ⟨l, hl, rfl⟩ := List.mem_map.1 hi
  obtain ⟨hinline, hsignificant⟩ := SourceLine.isInline_of_mem_ofSource hl
  refine Token.wellFormed_of_ofLine hinline hsignificant ?_
  unfold ofSourceLine at ht
  dsimp only at ht
  cases hline : Token.ofLine l.text with
  | error e => rw [hline] at ht; cases ht
  | ok u => rw [hline] at ht; cases ht; rfl

/-! ### Segments -/

namespace Segment

/-- Whether a piece of a text line can say the segment. -/
def WellFormed : Segment → Prop
  | .literal t => t ≠ [] ∧ ¬ Token.markerOpen <:+: t
  | .reference name => Text.isIdentifier name = true
  | .function name => Text.isIdentifier name = true
  | .image path => path ≠ [] ∧ path.IsTrimmed ∧ ¬ Token.markerClose <:+: path

theorem infix_of_imagePath? {inner path : Text} (h : imagePath? inner = some path) :
    path <:+: inner := by
  simp only [imagePath?, Option.bind_eq_bind, Option.bind_eq_some_iff] at h
  obtain ⟨rest, hrest, opened, hopened, closed, hclosed, h⟩ := h
  split at h
  · cases h
  · cases h
    exact (Text.infix_trim closed).trans <|
      (Text.prefix_of_stripEnd? hclosed).isInfix.trans <|
      ((Text.suffix_of_stripStart? hopened).trans <|
        (Text.suffix_trimStart rest).trans (Text.suffix_of_stripStart? hrest)).isInfix

theorem imagePath?_trimmed {inner path : Text} (h : imagePath? inner = some path) :
    path ≠ [] ∧ path.IsTrimmed := by
  simp only [imagePath?, Option.bind_eq_bind, Option.bind_eq_some_iff] at h
  obtain ⟨_, -, _, -, closed, -, h⟩ := h
  split at h
  · cases h
  · next hne =>
    cases h
    exact ⟨by simpa using hne, Text.isTrimmed_trim closed⟩

/-- A marker says a well-formed segment, unless it holds what would have ended
    it. -/
theorem wellFormed_of_ofMarker {inner : Text} {s : Segment}
    (hinner : ¬ Token.markerClose <:+: inner) (h : ofMarker inner = .ok s) : s.WellFormed := by
  unfold ofMarker at h
  split at h
  · next hname =>
    cases h
    exact hname
  · split at h
    · next path hpath =>
      cases h
      obtain ⟨hne, htrimmed⟩ := imagePath?_trimmed hpath
      refine ⟨hne, htrimmed, ?_⟩
      intro hclose
      exact hinner (hclose.trans (infix_of_imagePath? hpath))
    · cases h

end Segment

/-- The path of an image is written in its marker. -/
theorem Segment.infix_of_ofMarker_eq_image {inner path : Text}
    (h : ofMarker inner = .ok (.image path)) : path <:+: inner := by
  unfold ofMarker at h
  split at h
  · cases h
  · split at h
    · next hpath =>
      cases h
      exact infix_of_imagePath? hpath
    · cases h

namespace Piece

variable {p : Piece} {t rest : Text}

theorem Fits.wellFormed {s : Segment} (hp : p.Fits rest) (h : p.meaning = .ok s) :
    s.WellFormed := by
  have hdollar : (Segment.literal ['$']).WellFormed := ⟨by simp, by decide⟩
  cases hp with
  | plainText hne hplain hend =>
    cases h
    exact ⟨hne, hplain.not_markerOpen_infix⟩
  | dollarPair =>
    cases h
    exact hdollar
  | loneDollar hother hend =>
    cases h
    exact hdollar
  | reference hname hend =>
    cases h
    exact hname
  | @closed inner _ hfirst =>
    refine Segment.wellFormed_of_ofMarker ?_ h
    -- The marker ends with the first closing braces.
    intro hclose
    exact hfirst ((hclose.trans (Text.infix_trim inner)).trans (List.prefix_append _ _).isInfix)
  | unclosed hnone => cases h

/-- A piece of a text line says a well-formed segment, if it says any. -/
theorem wellFormed_of_mem_ofText (hp : p ∈ ofText t) {s : Segment} (h : p.meaning = .ok s) :
    s.WellFormed := by
  obtain ⟨rest, hfits⟩ := exists_fits_of_mem_ofText hp
  exact hfits.wellFormed h

/-- The path of an image stands in the span of its piece. -/
theorem Fits.image_infix_span {path : Text} (hp : p.Fits rest)
    (h : p.meaning = .ok (.image path)) : path <:+: p.span := by
  cases hp with
  | @closed inner _ hfirst =>
    exact ((Segment.infix_of_ofMarker_eq_image h).trans (Text.infix_trim inner)).trans
      (List.infix_append _ _ _)
  | _ => cases h

theorem image_infix_of_mem_ofText {path : Text} (hp : p ∈ ofText t)
    (h : p.meaning = .ok (.image path)) : path <:+: t := by
  obtain ⟨rest, hfits⟩ := exists_fits_of_mem_ofText hp
  exact (hfits.image_infix_span h).trans (span_infix_of_mem_ofText hp)

end Piece

end Dialogue
