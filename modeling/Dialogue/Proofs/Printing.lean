import Dialogue.Markup.Printer
import Dialogue.Proofs.Layout
import Dialogue.Proofs.Wording

/-! # What is printed is read again

    A token that is well-formed is printed on one line, and that line says the token
    (`Token.ofLine_print`). So a source that prints such tokens says them, one after
    the other, on the lines from one on (`Item.ofSource_printAll`). As no line says any
    other token (`Item.wellFormed_of_mem_tokens`), the well-formed ones are just those
    that sources say: `reading_inverts_printing`.

    Within a text line the same holds of references and markers. What begins behind
    them is read as if it stood alone, except that an identifier goes on as far as it
    can, so that none may follow a reference (`Piece.exists_ofText_print`).
-/

namespace Dialogue

/-! ### Tokens -/

namespace Token

variable {t rest : Text} {name label target : Text}

theorem headerRest?_eq_none {c : Char} (hc : c ≠ '{') (rest : Text) :
    headerRest? (c :: rest) = none := by
  have hopen : Text.stripStart? markerOpen (c :: rest) = none := by
    rw [Text.stripStart?_eq_none_iff]
    rintro ⟨later, hlater⟩
    exact hc (List.cons.inj hlater).1.symm
  simp [headerRest?, hopen]

theorem speakerName?_eq_none {c : Char} (hc : c ≠ '[') (rest : Text) :
    speakerName? (c :: rest) = none := by
  have hopen : Text.stripStart? ['['] (c :: rest) = none := by
    rw [Text.stripStart?_eq_none_iff]
    rintro ⟨later, hlater⟩
    exact hc (List.cons.inj hlater).1.symm
  simp [speakerName?, hopen]

theorem ofLine_header (h : (header name).WellFormed) :
    ofLine (print (.header name)) = .ok (.header name) := by
  obtain ⟨hne, ⟨htrimmed, -⟩, hopen, hclose⟩ := h
  have hrest : headerRest? (print (.header name)) = some ('(' :: (name ++ ')' :: markerClose)) := by
    have hword : headerRest? (markerOpen ++ [] ++ headerTag ++ '(' :: (name ++ ')' :: markerClose)) =
        some ('(' :: (name ++ ')' :: markerClose)) :=
      headerRest?_eq_some (by simp) (by simp [Text.isIdentifierChar])
    simpa [print] using hword
  have hname : headerName? ('(' :: (name ++ ')' :: markerClose)) = some name := by
    have hstart : Text.trimStart ('(' :: (name ++ ')' :: markerClose)) =
        ['('] ++ (name ++ [')'] ++ markerClose) := by
      rw [Text.trimStart_eq_self (by simp [Text.isBlank])]
      simp
    have hend : (name ++ [')']).trimEnd = name ++ [')'] :=
      Text.trimEnd_eq_self (by simp [Text.isBlank])
    have hgood : (name.isEmpty || name.any fun c => c == '(' || c == ')') = false := by
      rw [Bool.or_eq_false_iff, List.isEmpty_eq_false_iff, List.any_eq_false]
      refine ⟨hne, ?_⟩
      intro c hc
      have hleft : c ≠ '(' := fun heq => hopen (heq ▸ hc)
      have hright : c ≠ ')' := fun heq => hclose (heq ▸ hc)
      simp [hleft, hright]
    simp only [headerName?, hstart, Text.stripStart?_append, Text.stripEnd?_append, hend,
      htrimmed.trim_eq, hgood, Option.bind_eq_bind, Option.bind_some]
    rfl
  rw [ofLine, hrest]
  dsimp only
  rw [hname]

theorem ofLine_speaker (h : (speaker name).WellFormed) :
    ofLine (print (.speaker name)) = .ok (.speaker name) := by
  have hname : speakerName? (print (.speaker name)) = some name := by
    have hopen : Text.stripStart? ['['] ('[' :: name ++ [']']) = some (name ++ [']']) :=
      Text.stripStart?_append ['['] (name ++ [']'])
    simp only [print, speakerName?, hopen, Text.stripEnd?_append, h.1.trim_eq,
      Option.bind_eq_bind, Option.bind_some]
  rw [ofLine, hname, print, List.cons_append, headerRest?_eq_none (by decide)]

theorem ofLine_choice (h : (choice label target).WellFormed) :
    ofLine (print (.choice label target)) = .ok (.choice label target) := by
  obtain ⟨hlabel, ⟨hlabelTrimmed, -⟩, htarget, ⟨htargetTrimmed, -⟩, harrow⟩ := h
  have hparts : choiceParts? (' ' :: (label ++ ' ' :: (arrow ++ ' ' :: target))) =
      some (label, target) := by
    have hbody : (label ++ ' ' :: (arrow ++ ' ' :: target)).IsTrimmed := by
      have hlast : ∀ c ∈ (' ' :: (arrow ++ ' ' :: target)).getLast?, Text.isBlank c = false := by
        have hend := Text.getLast?_append_right (' ' :: (arrow ++ [' '])) htarget
        have hwhole : ' ' :: (arrow ++ [' ']) ++ target = ' ' :: (arrow ++ ' ' :: target) := by
          simp
        rw [hwhole] at hend
        rw [hend]
        exact htargetTrimmed.2
      exact Text.isTrimmed_append hlabel (by simp) hlabelTrimmed.1 hlast
    -- No arrow comes about behind the one between label and target.
    have hsplit : Text.splitLast? arrow (label ++ [' '] ++ (arrow ++ ' ' :: target)) =
        some (label ++ [' '], ' ' :: target) := by
      apply Text.splitLast?_append _ (by decide)
      intro hpart
      rcases Text.infix_or_infix_of_append_cons (by decide) hpart with hpart | hpart
      · exact absurd hpart (by decide)
      · exact harrow hpart
    have hbefore : Text.trim (label ++ [' ']) = label :=
      hlabelTrimmed.trim_concat (by decide)
    rw [List.append_assoc, List.singleton_append] at hsplit
    simp only [choiceParts?, Text.trim_cons_of_isBlank (show Text.isBlank ' ' = true by decide),
      hbody.trim_eq, hsplit, hbefore, htargetTrimmed.trim_eq, Option.bind_eq_bind, Option.bind_some,
      List.isEmpty_eq_false_iff.2 hlabel, List.isEmpty_eq_false_iff.2 htarget]
    rfl
  have hprint : print (.choice label target) =
      '-' :: ' ' :: (label ++ ' ' :: (arrow ++ ' ' :: target)) := by
    simp [print]
  have hbody : choiceBody? ('-' :: ' ' :: (label ++ ' ' :: (arrow ++ ' ' :: target))) =
      some (' ' :: (label ++ ' ' :: (arrow ++ ' ' :: target))) := rfl
  rw [ofLine, hprint, headerRest?_eq_none (by decide), speakerName?_eq_none (by decide), hbody]
  dsimp only
  rw [hparts]

/-! A line that begins as nothing else is a text. -/

theorem headerRest?_eq_none_of_not (h : ¬ BeginsHeader t) : headerRest? t = none := by
  cases hrest : headerRest? t with
  | none => rfl
  | some rest =>
    simp only [headerRest?, Option.bind_eq_bind, Option.bind_eq_some_iff] at hrest
    obtain ⟨inner, hinner, found, hfound, hrest⟩ := hrest
    refine absurd ⟨inner.takeWhile Text.isBlank, found, ?_, ?_, ?_⟩ h
    · rw [List.append_assoc, List.append_assoc, Text.stripStart?_eq_some_iff.1 hfound,
        Text.trimStart, List.takeWhile_append_dropWhile]
      exact (Text.stripStart?_eq_some_iff.1 hinner).symm
    · intro c hc
      exact List.all_eq_true.1 List.all_takeWhile c hc
    · intro c hc
      split at hrest
      · cases hrest
      · next hany =>
        rw [hc] at hany
        simpa using hany

theorem ofLine_text (h : (text t).WellFormed) : ofLine (print (.text t)) = .ok (.text t) := by
  obtain ⟨-, -, -, hheader, hbracketed, hdashed⟩ := h
  have hname : speakerName? t = none := by
    cases hname : speakerName? t with
    | none => rfl
    | some name =>
      simp only [speakerName?, Option.bind_eq_bind, Option.bind_eq_some_iff] at hname
      obtain ⟨opened, hopened, inner, hinner, -⟩ := hname
      refine absurd ⟨inner, ?_⟩ hbracketed
      rw [List.cons_append, Text.stripEnd?_eq_some_iff.1 hinner]
      exact (Text.stripStart?_eq_some_iff.1 hopened).symm
  have hbody : choiceBody? t = none := by
    unfold choiceBody?
    split
    · exact absurd (.inl rfl) hdashed
    · next c rest =>
      split
      · next hc =>
        simp only [Bool.or_eq_true, beq_iff_eq] at hc
        rcases hc with rfl | rfl
        · exact absurd (.inr ⟨rest, .inl rfl⟩) hdashed
        · exact absurd (.inr ⟨rest, .inr rfl⟩) hdashed
      · rfl
    · rfl
  rw [print, ofLine, headerRest?_eq_none_of_not hheader, hname, hbody]

/-- A line that begins with a dollar is a text. -/
theorem wellFormed_text_of_dollar {rest : Text} (h : Text.IsInline ('$' :: rest)) :
    (text ('$' :: rest)).WellFormed := by
  refine ⟨List.cons_ne_nil _ _, h, by simp, ?_, ?_, ?_⟩
  · rintro ⟨blanks, later, heq, -⟩
    cases heq
  · rintro ⟨inner, heq⟩
    cases heq
  · rintro (heq | ⟨later, heq | heq⟩)
    · cases heq
    · cases heq
    · cases heq

/-- The line that a well-formed token is printed on says the token. -/
theorem ofLine_print {token : Token} (h : token.WellFormed) :
    ofLine token.print = .ok token := by
  cases token with
  | header name => exact ofLine_header h
  | speaker name => exact ofLine_speaker h
  | choice label target => exact ofLine_choice h
  | text t => exact ofLine_text h

/-- It is one line, without blanks around it, and it is significant. -/
theorem isInline_print {token : Token} (h : token.WellFormed) :
    token.print.IsInline ∧ SourceLine.isSignificant token.print = true := by
  cases token with
  | header name =>
    obtain ⟨hne, hinline, -, -⟩ := h
    have htrimmed : (print (.header name)).IsTrimmed :=
      Text.isTrimmed_append (by simp) (by simp) (by simp [markerOpen, Text.isBlank])
        (by simp [markerClose, Text.isBlank])
    exact ⟨⟨htrimmed, by simp [print, markerOpen, headerTag, markerClose, hinline.2]⟩, rfl⟩
  | speaker name =>
    have htrimmed : (print (.speaker name)).IsTrimmed :=
      Text.isTrimmed_append (by simp) (by simp) (by simp [Text.isBlank]) (by simp [Text.isBlank])
    exact ⟨⟨htrimmed, by simp [print, h.2]⟩, rfl⟩
  | choice label target =>
    obtain ⟨hlabel, hlabelInline, htarget, htargetInline, -⟩ := h
    have hprint : print (.choice label target) =
        ('-' :: ' ' :: (label ++ ' ' :: (arrow ++ [' ']))) ++ target := by
      simp [print]
    have htrimmed : (print (.choice label target)).IsTrimmed := by
      rw [hprint]
      exact Text.isTrimmed_append (by simp) htarget (by simp [Text.isBlank]) htargetInline.1.2
    exact ⟨⟨htrimmed, by simp [print, arrow, hlabelInline.2, htargetInline.2]⟩, rfl⟩
  | text t =>
    obtain ⟨hne, hinline, hcomment, -⟩ := h
    refine ⟨hinline, ?_⟩
    simp [print, SourceLine.isSignificant, hne, hcomment]

/-- A token is well-formed exactly when the line that it is printed on says it. -/
theorem wellFormed_iff {token : Token} : token.WellFormed ↔
    token.print.IsInline ∧ SourceLine.isSignificant token.print = true ∧
      ofLine token.print = .ok token := by
  constructor
  · intro h
    obtain ⟨hinline, hsignificant⟩ := isInline_print h
    exact ⟨hinline, hsignificant, ofLine_print h⟩
  · rintro ⟨hinline, hsignificant, hline⟩
    exact wellFormed_of_ofLine hinline hsignificant hline

instance : DecidablePred WellFormed := fun _ => decidable_of_iff' _ wellFormed_iff

end Token

/-! ### Sources -/

namespace Item

theorem ofLines_cons {l : Text} (n : Nat) (ls : List Text) (hl : l.IsTrimmed)
    (hsignificant : SourceLine.isSignificant l = true) :
    ofLines n (l :: ls) = ⟨n, Token.ofLine l⟩ :: ofLines (n + 1) ls := by
  simp only [ofLines, SourceLine.significant, List.zipIdx_cons, List.map_cons, hl.trim_eq,
    List.filter_cons, hsignificant, if_true]
  rfl

theorem ofLines_map_print (n : Nat) {ts : List Token} (h : ∀ t ∈ ts, t.WellFormed) :
    ofLines n (ts.map Token.print) = (ts.zipIdx n).map fun p => ⟨p.2, .ok p.1⟩ := by
  induction ts generalizing n with
  | nil => rfl
  | cons t ts ih =>
    have ht : t.WellFormed := h t List.mem_cons_self
    obtain ⟨hinline, hsignificant⟩ := Token.isInline_print ht
    rw [List.map_cons, ofLines_cons n _ hinline.1 hsignificant, Token.ofLine_print ht,
      ih (n + 1) fun u hu => h u (List.mem_cons_of_mem t hu)]
    rfl

/-- A source that prints well-formed tokens says them, one on each line. -/
theorem ofSource_printAll {ts : List Token} (h : ∀ t ∈ ts, t.WellFormed) :
    ofSource (Token.printAll ts) = (ts.zipIdx 1).map fun p => ⟨p.2, .ok p.1⟩ := by
  by_cases hne : ts = []
  · rw [hne]
    rfl
  · have hlines : (Token.printAll ts).lines = ts.map Token.print := by
      apply Text.lines_unlines (by simpa using hne)
      intro l hl
      obtain ⟨t, ht, rfl⟩ := List.mem_map.1 hl
      exact (Token.isInline_print (h t ht)).1.2
    rw [ofSource_eq_ofLines, hlines, ofLines_map_print 1 h]

theorem map_token_printAll {ts : List Token} (h : ∀ t ∈ ts, t.WellFormed) :
    (ofSource (Token.printAll ts)).map token = ts.map .ok := by
  have hsays : token ∘ (fun p : Token × Nat => (⟨p.2, .ok p.1⟩ : Item)) = .ok ∘ Prod.fst := rfl
  rw [ofSource_printAll h, List.map_map, hsays, ← List.map_map, List.zipIdx_map_fst]

/-- A line feed behind the last line says nothing. -/
theorem ofSource_append_ending (source : Text) {ending : Text}
    (h : ending ∈ ([[], ['\n']] : List Text)) : ofSource (source ++ ending) = ofSource source := by
  rcases List.mem_pair.1 h with rfl | rfl
  · rw [List.append_nil]
  · have hnone : ofSource [] = [] := rfl
    rw [ofSource_append_newline, hnone, List.map_nil, List.append_nil]

end Item

/-- What the lines of sources say are the well-formed tokens and no others. And a source
    that prints such tokens, each on a line of its own, says just them, on the lines from
    one on, whether a line feed ends the last line or not. -/
theorem reading_inverts_printing :
    (∀ t : Token, (∃ source : Text, ∃ i ∈ Item.ofSource source, i.token = .ok t) ↔
      t.WellFormed) ∧
    ∀ ts : List Token, (∀ t ∈ ts, t.WellFormed) → ∀ ending ∈ ([[], ['\n']] : List Text),
      Item.ofSource (Token.printAll ts ++ ending) = (ts.zipIdx 1).map fun p => ⟨p.2, .ok p.1⟩ := by
  refine ⟨fun t => ⟨?_, fun ht => ?_⟩, fun ts hts ending hending => ?_⟩
  · rintro ⟨source, hsaid⟩
    exact Item.wellFormed_of_mem_tokens (Item.mem_tokens_iff.2 hsaid)
  · have hread : Item.ofSource (Token.printAll [t]) = [⟨1, .ok t⟩] :=
      Item.ofSource_printAll (List.forall_mem_singleton.2 ht)
    refine ⟨Token.printAll [t], ⟨1, .ok t⟩, ?_, rfl⟩
    rw [hread]
    exact List.mem_singleton_self _
  · rw [Item.ofSource_append_ending _ hending, Item.ofSource_printAll hts]

/-! Tokens that are nearly others: a name with braces and a line separator in it, a speaker
    without a name, a label full of arrows, a target that begins with what an arrow ends
    with, a dash without a blank behind it, a marker whose word goes on, and brackets that
    are not the last ones of a line. -/

/-- The tokens. -/
def thornyTokens : List Token :=
  [.header "\x7d\x7d #\u2028[x]".toList, .speaker [], .speaker "] [".toList,
    .choice "a -> b --".toList "> -".toList, .choice "#".toList "[x]".toList,
    .text "-dash -> x".toList, .text "\x7b\x7bConversationNameShown\x7d\x7d hi".toList,
    .text "[x] y".toList, .text "[".toList, .text "$ -> #".toList]

theorem reading_thornyTokens :
    (∀ t ∈ thornyTokens, t.WellFormed) ∧
    Item.ofSource (Token.printAll thornyTokens ++ ['\n']) =
      (thornyTokens.zipIdx 1).map fun p => ⟨p.2, .ok p.1⟩ := by
  have hthorny : ∀ t ∈ thornyTokens, t.WellFormed := by decide +kernel
  exact ⟨hthorny, reading_inverts_printing.2 thornyTokens hthorny ['\n'] (by decide)⟩

/-! ### Segments -/

/-- References and markers, which are all segments but plain text. -/
def Segment.IsMark : Segment → Prop
  | .literal _ => False
  | _ => True

namespace Segment

theorem ofMarker_function {name : Text} (h : (function name).WellFormed) :
    ofMarker name.trim = .ok (.function name) := by
  obtain ⟨hne, hchars⟩ := Text.isIdentifier_iff.1 h
  have htrimmed : name.IsTrimmed := by
    constructor
    · intro c hc
      exact Text.isBlank_eq_false_of_isIdentifierChar (hchars c (List.mem_of_head? hc))
    · intro c hc
      exact Text.isBlank_eq_false_of_isIdentifierChar (hchars c (List.mem_of_getLast? hc))
  have hname : Text.isIdentifier name = true := h
  rw [htrimmed.trim_eq, ofMarker, if_pos hname]

theorem ofMarker_image {path : Text} (h : (image path).WellFormed) :
    ofMarker (Text.trim (imageTag ++ '(' :: path ++ [')'])) = .ok (.image path) := by
  obtain ⟨hne, htrimmed, -⟩ := h
  have hinner : (imageTag ++ '(' :: path ++ [')']).IsTrimmed :=
    Text.isTrimmed_append (by simp) (by simp) (by simp [imageTag, Text.isBlank])
      (by simp [Text.isBlank])
  have hname : ¬ Text.isIdentifier (imageTag ++ '(' :: path ++ [')']) = true := by
    simp [Text.isIdentifier, imageTag, Text.isIdentifierChar]
  have hpath : imagePath? (imageTag ++ '(' :: path ++ [')']) = some path := by
    have hopen : Text.trimStart (['('] ++ (path ++ [')'])) = ['('] ++ (path ++ [')']) :=
      Text.trimStart_eq_self (by simp [Text.isBlank])
    have hwhole : imageTag ++ '(' :: path ++ [')'] = imageTag ++ (['('] ++ (path ++ [')'])) := by
      simp
    simp only [imagePath?, hwhole, Text.stripStart?_append, hopen, Text.stripEnd?_append,
      htrimmed.trim_eq, List.isEmpty_eq_false_iff.2 hne, Option.bind_eq_bind, Option.bind_some]
    rfl
  rw [hinner.trim_eq, ofMarker, if_neg hname, hpath]

end Segment

namespace Piece

/-- A marker ends at the braces that were put behind it, if none come about before. -/
theorem ofText_marker {inner : Text} {meaning : Except Cause Segment} (rest : Text)
    (h : ¬ Token.markerClose <:+: inner ++ ['}']) (hmeaning : Segment.ofMarker inner.trim = meaning) :
    ofText (Token.markerOpen ++ (inner ++ (Token.markerClose ++ rest))) =
      ⟨Token.markerOpen ++ inner ++ Token.markerClose, meaning⟩ :: ofText rest := by
  have hfits : Fits ⟨Token.markerOpen ++ inner ++ Token.markerClose, meaning⟩ rest := by
    rw [← hmeaning]
    exact .closed h
  simpa using hfits.ofText_append

/-- A reference or a marker is read as it was printed, and what is behind it as if it
    stood alone. -/
theorem exists_ofText_print {s : Segment} {rest : Text} (hmark : s.IsMark) (hs : s.WellFormed)
    (hrest : ∀ name, s = .reference name → ∀ c ∈ rest.head?, Text.isIdentifierChar c = false) :
    ∃ p : Piece, p.meaning = .ok s ∧ ofText (s.print ++ rest) = p :: ofText rest := by
  cases s with
  | literal t => cases hmark
  | reference name =>
    refine ⟨⟨'$' :: name, .ok (.reference name)⟩, rfl, ?_⟩
    exact (Fits.reference hs (hrest name rfl)).ofText_append
  | function name =>
    have hbrace : '}' ∉ name := Text.not_mem_of_isIdentifier hs (by decide)
    -- There is but one brace up to there.
    have hclose : ¬ Token.markerClose <:+: name ++ ['}'] := by
      intro hpart
      have hcount := hpart.sublist.count_le '}'
      rw [List.count_append, List.count_eq_zero.2 hbrace] at hcount
      exact absurd hcount (by decide)
    have hread := ofText_marker rest hclose (Segment.ofMarker_function hs)
    exact ⟨_, rfl, by simpa [Segment.print] using hread⟩
  | image path =>
    have hinner : Segment.imageTag ++ '(' :: path ++ [')'] ++ ['}'] =
        Segment.imageTag ++ '(' :: (path ++ ')' :: ['}']) := by
      simp
    -- Closing braces would have to stand on one side of each parenthesis.
    have hclose : ¬ Token.markerClose <:+: Segment.imageTag ++ '(' :: path ++ [')'] ++ ['}'] := by
      rw [hinner]
      intro hpart
      rcases Text.infix_or_infix_of_append_cons (by decide) hpart with hpart | hpart
      · exact absurd hpart (by decide)
      · rcases Text.infix_or_infix_of_append_cons (by decide) hpart with hpart | hpart
        · exact hs.2.2 hpart
        · exact absurd hpart (by decide)
    have hread := ofText_marker rest hclose (Segment.ofMarker_image hs)
    exact ⟨_, rfl, by simpa [Segment.print] using hread⟩

theorem head?_printAll {segments : List Segment} (h : ∀ s ∈ segments, s.IsMark) :
    ∀ c ∈ (Segment.printAll segments).head?, Text.isIdentifierChar c = false := by
  cases segments with
  | nil => simp [Segment.printAll]
  | cons s rest =>
    have hs : s.IsMark := h s List.mem_cons_self
    cases s with
    | literal t => cases hs
    | reference name => simp [Segment.printAll, Segment.print, Text.isIdentifierChar]
    | function name =>
      simp [Segment.printAll, Segment.print, Token.markerOpen, Text.isIdentifierChar]
    | image path =>
      simp [Segment.printAll, Segment.print, Token.markerOpen, Text.isIdentifierChar]

/-- References and markers are read as they were printed. -/
theorem map_meaning_printAll {segments : List Segment}
    (h : ∀ s ∈ segments, s.IsMark ∧ s.WellFormed) :
    (ofText (Segment.printAll segments)).map meaning = segments.map .ok := by
  induction segments with
  | nil => simp [Segment.printAll, ofText]
  | cons s rest ih =>
    obtain ⟨hmark, hs⟩ := h s List.mem_cons_self
    have hlater : ∀ u ∈ rest, u.IsMark ∧ u.WellFormed := fun u hu => h u (List.mem_cons_of_mem s hu)
    have hhead := head?_printAll fun u hu => (hlater u hu).1
    obtain ⟨p, hp, hread⟩ := exists_ofText_print hmark hs fun _ _ => hhead
    rw [Segment.printAll, List.flatMap_cons, ← Segment.printAll, hread, List.map_cons, hp, ih hlater,
      List.map_cons]

end Piece

/-! ### Text lines -/

namespace Segment

theorem isTrimmed_print {s : Segment} (hmark : s.IsMark) (hs : s.WellFormed) :
    s.print ≠ [] ∧ s.print.IsTrimmed := by
  have hname : ∀ {name : Text} (c : Char), Text.isIdentifier name = true → c ∈ name.getLast? →
      Text.isBlank c = false := by
    intro name c hname hc
    have hchars := (Text.isIdentifier_iff.1 hname).2
    exact Text.isBlank_eq_false_of_isIdentifierChar (hchars c (List.mem_of_getLast? hc))
  cases s with
  | literal t => cases hmark
  | reference name =>
    have hne := (Text.isIdentifier_iff.1 hs).1
    exact ⟨by simp [print], Text.isTrimmed_append (s := ['$']) (by simp) hne (by simp [Text.isBlank])
      fun c hc => hname c hs hc⟩
  | function name =>
    exact ⟨by simp [print, Token.markerOpen], Text.isTrimmed_append (by simp [Token.markerOpen])
      (by simp [Token.markerClose]) (by simp [Token.markerOpen, Text.isBlank])
      (by simp [Token.markerClose, Text.isBlank])⟩
  | image path =>
    exact ⟨by simp [print, Token.markerOpen], Text.isTrimmed_append (by simp) (by simp)
      (by simp [Token.markerOpen, Text.isBlank]) (by simp [Token.markerClose, Text.isBlank])⟩

/-- References and markers without a line feed are printed on one line. -/
theorem isInline_printAll {segments : List Segment} (hne : segments ≠ [])
    (h : ∀ s ∈ segments, s.IsMark ∧ s.WellFormed) (hbreak : ∀ s ∈ segments, '\n' ∉ s.print) :
    (printAll segments).IsInline := by
  have htrimmed : printAll segments ≠ [] ∧ (printAll segments).IsTrimmed := by
    induction segments with
    | nil => exact absurd rfl hne
    | cons s rest ih =>
      obtain ⟨hmark, hs⟩ := h s List.mem_cons_self
      obtain ⟨hprint, hends⟩ := isTrimmed_print hmark hs
      rw [printAll, List.flatMap_cons, ← printAll]
      by_cases hrest : rest = []
      · rw [hrest]
        simpa [printAll] using ⟨hprint, hends⟩
      · obtain ⟨hlater, hlaterEnds⟩ := ih hrest (fun u hu => h u (List.mem_cons_of_mem s hu))
          (fun u hu => hbreak u (List.mem_cons_of_mem s hu))
        exact ⟨by simp [hprint], Text.isTrimmed_append hprint hlater hends.1 hlaterEnds.2⟩
  refine ⟨htrimmed.2, ?_⟩
  intro hmem
  obtain ⟨s, hs, hline⟩ := List.mem_flatMap.1 hmem
  exact hbreak s hs hline

end Segment

namespace Stretch

/-- What segments contribute, one behind the other. -/
def ofSegments (globals : Variables) : List Segment → Except Cause Stretch
  | [] => .ok nil
  | s :: rest => do
    let a ← ofSegment globals s
    let b ← ofSegments globals rest
    return a ++ b

variable {globals : Variables}

theorem ofSegments_cons {s : Segment} {rest : List Segment} {a b : Stretch}
    (ha : ofSegment globals s = .ok a) (hb : ofSegments globals rest = .ok b) :
    ofSegments globals (s :: rest) = .ok (a ++ b) := by
  rw [ofSegments, ha, hb]
  rfl

theorem ofSegments_append {first later : List Segment} {a b : Stretch}
    (ha : ofSegments globals first = .ok a) (hb : ofSegments globals later = .ok b) :
    ofSegments globals (first ++ later) = .ok (a ++ b) := by
  induction first generalizing a with
  | nil =>
    cases ha
    rw [nil_append]
    exact hb
  | cons s rest ih =>
    simp only [ofSegments, Except.bind_eq_ok_iff] at ha
    obtain ⟨x, hx, y, hy, hxy⟩ := ha
    cases hxy
    rw [append_assoc]
    exact ofSegments_cons hx (ih hy)

/-- Pieces contribute what their segments do. -/
theorem ofPieces_eq_ofSegments {ps : List Piece} {segments : List Segment}
    (h : ps.map Piece.meaning = segments.map .ok) :
    ofPieces globals ps = ofSegments globals segments := by
  induction ps generalizing segments with
  | nil =>
    have hnil : segments = [] := List.map_eq_nil_iff.1 h.symm
    rw [hnil]
    rfl
  | cons p ps ih =>
    obtain ⟨s, rest, rfl, hs, hrest⟩ := List.map_eq_cons_iff.1 h.symm
    rw [ofPieces, ofSegments, ih hrest.symm, ← hs]
    rfl

/-- A text line of references and markers contributes what it was printed from. -/
theorem ofText_printAll {segments : List Segment} (h : ∀ s ∈ segments, s.IsMark ∧ s.WellFormed) :
    ofText globals (Segment.printAll segments) = ofSegments globals segments :=
  ofPieces_eq_ofSegments (Piece.map_meaning_printAll h)

end Stretch

end Dialogue
