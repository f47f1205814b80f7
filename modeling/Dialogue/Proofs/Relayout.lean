import Mathlib.Logic.Relation
import Dialogue.Proofs.Alike

/-! # Layout

    Only the significant lines of a source count, and of these only the trimmed texts in
    their order. Two sources in which they are the same are compiled to the same
    conversations, or refused for the same cause (`compile_ignores_layout`). The line of
    the refusal may have another number there, but it is the same one when significant
    lines alone are counted.

    What keeps the significant lines are the edits of layout (`LayoutEdit`): blanks put
    around a line, which indent it or end it with a carriage return, and blank lines and
    comments put anywhere. They are all there is. Sources with the same significant lines
    can be turned into each other by such edits (`sameButLayout_iff`).
-/

namespace Dialogue

namespace SourceLine

/-- The texts of the significant lines among these. -/
def texts (ls : List Text) : List Text := (ls.map Text.trim).filter isSignificant

/-- The line of one source and that of the other are significant lines, and as many
    significant lines stand above one as above the other. -/
def SameRank (s s' : Text) (line line' : Nat) : Prop :=
  ∃ k : Nat, (ofSource s)[k]?.map number = some line ∧ (ofSource s')[k]?.map number = some line'

theorem map_text_ofSource (s : Text) : (ofSource s).map text = texts s.lines := by
  -- Without their numbers the numbered lines are the lines.
  have hlines : s.lines.map Text.trim =
      (s.numberedLines.map fun p => (⟨p.2, p.1.trim⟩ : SourceLine)).map text := by
    rw [List.map_map]
    exact (congrArg (List.map Text.trim) (List.zipIdx_map_fst 1 s.lines)).symm.trans List.map_map
  rw [texts, hlines, List.filter_map]
  rfl

end SourceLine

/-! ### Compiling -/

/-- What sources say is the same, line by line, if their significant lines are. -/
theorem Item.forall₂_alike_ofSource {s s' : Text}
    (h : SourceLine.texts s.lines = SourceLine.texts s'.lines) :
    List.Forall₂ (Item.Alike (SourceLine.SameRank s s')) (ofSource s) (ofSource s') := by
  rw [← SourceLine.map_text_ofSource, ← SourceLine.map_text_ofSource] at h
  rw [ofSource, ofSource, List.forall₂_map_left_iff, List.forall₂_map_right_iff,
    List.forall₂_iff_get]
  have hlength := congrArg List.length h
  rw [List.length_map, List.length_map] at hlength
  refine ⟨hlength, ?_⟩
  intro k hk hk'
  have htext : (SourceLine.ofSource s)[k].text = (SourceLine.ofSource s')[k].text := by
    have hget := congrArg (fun l : List Text => l[k]?) h
    simpa [hk, hk'] using hget
  refine ⟨⟨k, ?_, ?_⟩, congrArg Token.ofLine htext⟩
  · rw [List.getElem?_eq_getElem hk]
    rfl
  · rw [List.getElem?_eq_getElem hk']
    rfl

theorem alike_compile_of_texts_eq (globals : Variables) {s s' : Text}
    (h : SourceLine.texts s.lines = SourceLine.texts s'.lines) :
    Except.Alike (CompileError.Alike (SourceLine.SameRank s s')) Eq (compile globals s)
      (compile globals s') := by
  have hitems : List.Forall₂ (fun i i' => i.Alike (SourceLine.SameRank s s') i' ∧
      ∀ raw, i.token = .ok (.text raw) → raw.CompilesAlike Eq globals globals)
      (Item.ofSource s) (Item.ofSource s') := by
    refine (Item.forall₂_alike_ofSource h).imp ?_
    intro i i' hi
    exact ⟨hi, fun raw _ speaker => .refl _ (fun _ => rfl) fun _ => rfl⟩
  refine (alike_compileItems hitems).imp (fun _ _ he => he) ?_
  intro cs cs' hcs
  exact Conversation.forall₂_alike_eq_iff.1 hcs

/-! ### Edits -/

/-- An edit of the layout of a source, on its lines. -/
inductive LayoutEdit : List Text → List Text → Prop
  /-- Blanks are put in front of a line and behind it. -/
  | pad (above below : List Text) (l : Text) {left right : Text}
      (hleft : ∀ c ∈ left, Text.isBlank c = true) (hright : ∀ c ∈ right, Text.isBlank c = true) :
      LayoutEdit (above ++ l :: below) (above ++ (left ++ l ++ right) :: below)
  /-- A blank line is put in. -/
  | blank (above below : List Text) {blanks : Text}
      (hblanks : ∀ c ∈ blanks, Text.isBlank c = true) :
      LayoutEdit (above ++ below) (above ++ blanks :: below)
  /-- A comment is put in. -/
  | comment (above below : List Text) {left : Text} (rest : Text)
      (hleft : ∀ c ∈ left, Text.isBlank c = true) :
      LayoutEdit (above ++ below) (above ++ (left ++ '#' :: rest) :: below)

/-- The sources differ in their layout at most: edits of it, made or taken back, turn
    one into the other. -/
def Text.SameButLayout (s s' : Text) : Prop := Relation.EqvGen LayoutEdit s.lines s'.lines

namespace SourceLine

theorem texts_append (ls ms : List Text) : texts (ls ++ ms) = texts ls ++ texts ms := by
  rw [texts, List.map_append, List.filter_append]
  rfl

theorem texts_cons_of_not {l : Text} (h : isSignificant l.trim = false) (ls : List Text) :
    texts (l :: ls) = texts ls := by
  rw [texts, List.map_cons, List.filter_cons_of_neg (by simp [h])]
  rfl

/-- A line that is blank. -/
theorem isSignificant_of_blank {blanks : Text} (h : ∀ c ∈ blanks, Text.isBlank c = true) :
    isSignificant blanks.trim = false := by
  have htrim := Text.trim_append_blanks h (List.forall_mem_nil _) []
  rw [List.append_nil, List.append_nil] at htrim
  rw [htrim]
  rfl

/-- A line that is a comment. -/
theorem isSignificant_of_comment {left : Text} (h : ∀ c ∈ left, Text.isBlank c = true)
    (rest : Text) : isSignificant (left ++ '#' :: rest).trim = false := by
  obtain ⟨right, hright, -⟩ := Text.exists_eq_trimEnd_append ('#' :: rest)
  have hstart : (left ++ '#' :: rest).trimStart = '#' :: rest := by
    rw [Text.trimStart, List.dropWhile_append_of_pos h]
    exact Text.trimStart_eq_self (by simp [Text.isBlank])
  rw [Text.trim, hstart]
  -- If blanks are all there is, it is empty, and else it begins with the sign.
  cases htrim : Text.trimEnd ('#' :: rest) with
  | nil => rfl
  | cons c later =>
    rw [htrim] at hright
    rw [← (List.cons.inj hright).1]
    rfl

/-- An edit of the layout keeps the significant lines. -/
theorem texts_eq_of_edit {ls ms : List Text} (h : LayoutEdit ls ms) : texts ls = texts ms := by
  cases h with
  | pad above below l hleft hright =>
    rw [texts_append, texts_append]
    simp only [texts, List.map_cons, Text.trim_append_blanks hleft hright]
  | blank above below hblanks =>
    rw [texts_append, texts_append, texts_cons_of_not (isSignificant_of_blank hblanks)]
  | comment above below rest hleft =>
    rw [texts_append, texts_append, texts_cons_of_not (isSignificant_of_comment hleft rest)]

theorem texts_eq_of_eqvGen {ls ms : List Text} (h : Relation.EqvGen LayoutEdit ls ms) :
    texts ls = texts ms := by
  induction h with
  | rel ls ms hedit => exact texts_eq_of_edit hedit
  | refl ls => rfl
  | symm ls ms _ ih => exact ih.symm
  | trans ls ms ns _ _ ih ih' => exact ih.trans ih'

end SourceLine

namespace LayoutEdit

/-- An edit below one more line. -/
theorem cons (l : Text) {ls ms : List Text} (h : LayoutEdit ls ms) :
    LayoutEdit (l :: ls) (l :: ms) := by
  cases h with
  | pad above below m hleft hright => exact .pad (l :: above) below m hleft hright
  | blank above below hblanks => exact .blank (l :: above) below hblanks
  | comment above below rest hleft => exact .comment (l :: above) below rest hleft

theorem eqvGen_cons (l : Text) {ls ms : List Text} (h : Relation.EqvGen LayoutEdit ls ms) :
    Relation.EqvGen LayoutEdit (l :: ls) (l :: ms) := by
  induction h with
  | rel ls ms hedit => exact .rel _ _ (hedit.cons l)
  | refl ls => exact .refl _
  | symm ls ms _ ih => exact .symm _ _ ih
  | trans ls ms ns _ _ ih ih' => exact .trans _ _ _ ih ih'

/-- A line that says nothing is blank or a comment. -/
theorem of_not_isSignificant {l : Text} (h : SourceLine.isSignificant l.trim = false)
    (ls : List Text) : LayoutEdit ls (l :: ls) := by
  obtain ⟨left, right, hl, hleft, hright⟩ := l.exists_eq_append_trim
  rw [hl]
  cases htrim : l.trim with
  | nil =>
    refine .blank [] ls ?_
    intro c hc
    rw [List.append_nil] at hc
    rcases List.mem_append.1 hc with hc | hc
    · exact hleft c hc
    · exact hright c hc
  | cons c rest =>
    rw [htrim] at h
    have hsign : c = '#' := by simpa [SourceLine.isSignificant] using h
    rw [hsign, List.append_assoc]
    exact .comment [] ls (rest ++ right) hleft

/-- Edits bring every source down to the texts of its significant lines. -/
theorem eqvGen_texts (ls : List Text) :
    Relation.EqvGen LayoutEdit ls (SourceLine.texts ls) := by
  induction ls with
  | nil => exact .refl []
  | cons l ls ih =>
    cases h : SourceLine.isSignificant l.trim with
    | false =>
      rw [SourceLine.texts_cons_of_not h]
      exact .trans _ _ _ (.symm _ _ (.rel _ _ (of_not_isSignificant h ls))) ih
    | true =>
      obtain ⟨left, right, hl, hleft, hright⟩ := l.exists_eq_append_trim
      have hpad : LayoutEdit (l.trim :: ls) (l :: ls) := by
        have hedit := LayoutEdit.pad [] ls l.trim hleft hright
        rwa [← hl] at hedit
      have hkept : SourceLine.texts (l :: ls) = l.trim :: SourceLine.texts ls := by
        rw [SourceLine.texts, List.map_cons, List.filter_cons_of_pos h]
        rfl
      rw [hkept]
      exact .trans _ _ _ (.symm _ _ (.rel _ _ hpad)) (eqvGen_cons l.trim ih)

end LayoutEdit

/-- Sources differ in their layout at most if and only if they have the same significant
    lines. -/
theorem Text.sameButLayout_iff {s s' : Text} :
    s.SameButLayout s' ↔ SourceLine.texts s.lines = SourceLine.texts s'.lines := by
  constructor
  · exact SourceLine.texts_eq_of_eqvGen
  · intro h
    have hright := LayoutEdit.eqvGen_texts s'.lines
    rw [← h] at hright
    exact .trans _ _ _ (LayoutEdit.eqvGen_texts s.lines) (.symm _ _ hright)

/-- Sources with the same significant lines are compiled to the same conversations, or
    refused for the same cause, at lines that stand at the same place among the
    significant ones. And to have the same significant lines is to differ in indentation
    and other blanks around lines, blank lines and comments at most. -/
theorem compile_ignores_layout (globals : Variables) (s s' : Text) :
    (SourceLine.texts s.lines = SourceLine.texts s'.lines →
      Except.Alike (CompileError.Alike (SourceLine.SameRank s s')) Eq (compile globals s)
        (compile globals s')) ∧
    (s.SameButLayout s' ↔ SourceLine.texts s.lines = SourceLine.texts s'.lines) :=
  ⟨alike_compile_of_texts_eq globals, Text.sameButLayout_iff⟩

/-! A script with an empty conversation, and the same with carriage returns, indented,
    with comments between its lines and a line feed at its end. -/

/-- The script. -/
def denseSource : Text := String.toList
  "\x7b\x7bConversationName(Hollow)\x7d\x7d
\x7b\x7bConversationName(Full)\x7d\x7d
Hello!"

/-- The same in another layout. -/
def airySource : Text := String.toList
  "# Two conversations.\r
\r
\t\x7b\x7bConversationName(Hollow)\x7d\x7d\r
  # Nobody speaks.\r
\x7b\x7bConversationName(Full)\x7d\x7d \r
Hello!\r
"

/-- The empty conversation is found on line one of the one and on line three of the
    other, at the first significant line of both. -/
theorem compile_ignores_layout_hollow :
    SourceLine.texts denseSource.lines = SourceLine.texts airySource.lines ∧
    denseSource.SameButLayout airySource ∧
    compile ∅ denseSource = .error ⟨1, .emptyConversation "Hollow".toList⟩ ∧
    compile ∅ airySource = .error ⟨3, .emptyConversation "Hollow".toList⟩ ∧
    SourceLine.SameRank denseSource airySource 1 3 := by
  have htexts : SourceLine.texts denseSource.lines = SourceLine.texts airySource.lines := by
    decide +kernel
  have hplain : compile ∅ denseSource = .error ⟨1, .emptyConversation "Hollow".toList⟩ := by
    decide +kernel
  have hairy : compile ∅ airySource = .error ⟨3, .emptyConversation "Hollow".toList⟩ := by
    decide +kernel
  obtain ⟨halike, hiff⟩ := compile_ignores_layout ∅ denseSource airySource
  have hrefused := halike htexts
  rw [hplain, hairy] at hrefused
  cases hrefused with
  | error he => exact ⟨htexts, hiff.2 htexts, hplain, hairy, he.line⟩

end Dialogue
