import Dialogue.Proofs.Acceptance
import Dialogue.Proofs.Refusal
import Dialogue.Proofs.Wording

/-! # Compiled conversations are well-formed

    What can be relied on in every set of conversations that the compiler gives
    out, whatever the script and whatever the values of its variables: the form
    of all words that come from the script, the places of the choices, and the
    places of the functions in the texts.

    The values of variables only ever reach the text of a line, and a text may be
    any. So the words have the form that the tokens and the segments of the
    script have, and the places follow from counting.
-/

namespace Dialogue

/-! ### Well-formed lines -/

/-- The words of a line have the form that a script gives them, and its functions
    stand in their order, none of them beyond the text. -/
structure Line.WellFormed (l : Line) : Prop where
  speaker : l.speaker.IsInline
  sorted : l.content.invocations.Pairwise fun i j => i.offset ≤ j.offset
  bounded : ∀ i ∈ l.content.invocations, i.offset ≤ l.content.text.length
  functions : ∀ i ∈ l.content.invocations, Text.isIdentifier i.function = true
  image : ∀ path, l.image = some path → path ≠ [] ∧ path.IsInline ∧ ¬ Token.markerClose <:+: path

namespace Stretch

variable {globals : Variables} {a : Stretch}

/-- A function or an image in what a segment contributes is the segment itself. -/
theorem eq_of_ofSegment {s : Segment} (h : ofSegment globals s = .ok a) :
    (∀ i ∈ a.invocations, s = .function i.function) ∧
      ∀ path, a.image = some path → s = .image path := by
  cases s with
  | literal t => cases h; simp
  | reference name =>
    rw [ofSegment] at h
    split at h
    · cases h; simp
    · cases h
  | function f => cases h; simp
  | image path => cases h; simp

/-- The functions and the image of a stretch are marked in its pieces. -/
theorem exists_piece_of_ofPieces {ps : List Piece} (h : ofPieces globals ps = .ok a) :
    (∀ i ∈ a.invocations, ∃ p ∈ ps, p.meaning = .ok (.function i.function)) ∧
      ∀ path, a.image = some path → ∃ p ∈ ps, p.meaning = .ok (.image path) := by
  induction ps generalizing a with
  | nil =>
    cases h
    simp [nil]
  | cons p ps ih =>
    simp only [ofPieces, Except.bind_eq_ok_iff] at h
    obtain ⟨s, hs, first, hfirst, later, hlater, h⟩ := h
    cases h
    obtain ⟨hfunctions, himage⟩ := eq_of_ofSegment hfirst
    obtain ⟨hfunctions', himage'⟩ := ih hlater
    constructor
    · intro i hi
      rcases List.mem_append.1 hi with hi | hi
      · exact ⟨p, List.mem_cons_self, hfunctions i hi ▸ hs⟩
      · -- Moving a function behind another text leaves its name alone.
        obtain ⟨j, hj, rfl⟩ := List.mem_map.1 hi
        obtain ⟨q, hq, hsays⟩ := hfunctions' j hj
        exact ⟨q, List.mem_cons_of_mem p hq, hsays⟩
    · intro path hpath
      rw [image_append, Option.or_eq_some_iff] at hpath
      rcases hpath with hpath | ⟨-, hpath⟩
      · obtain ⟨q, hq, hsays⟩ := himage' path hpath
        exact ⟨q, List.mem_cons_of_mem p hq, hsays⟩
      · exact ⟨p, List.mem_cons_self, himage path hpath ▸ hs⟩

end Stretch

/-- A line that compiles is well-formed, if its speaker and its text stand on one
    line each. -/
theorem Line.wellFormed_of_compile {globals : Variables} {speaker raw : Text} {l : Line}
    (hspeaker : speaker.IsInline) (hraw : '\n' ∉ raw)
    (h : Line.compile globals speaker raw = .ok l) : l.WellFormed := by
  obtain ⟨s, hs, rfl⟩ := Line.compile_eq_ok_iff.1 h
  have hordered := Stretch.ordered_ofPieces hs
  obtain ⟨hfunctions, himage⟩ := Stretch.exists_piece_of_ofPieces hs
  refine ⟨hspeaker, hordered.sorted, hordered.bounded, ?_, ?_⟩
  · intro i hi
    obtain ⟨p, hp, hsays⟩ := hfunctions i hi
    exact Piece.wellFormed_of_mem_ofText hp hsays
  · intro path hpath
    obtain ⟨p, hp, hsays⟩ := himage path hpath
    obtain ⟨hne, htrimmed, hclose⟩ := Piece.wellFormed_of_mem_ofText hp hsays
    have hinside : path <:+: raw := Piece.image_infix_of_mem_ofText hp hsays
    exact ⟨hne, ⟨htrimmed, fun hbreak => hraw (hinside.mem hbreak)⟩, hclose⟩

/-! ### Well-formed conversations -/

/-- The words of a conversation have the form that a script gives them. It has a
    line, and its choices stand behind lines that it has, in their order. -/
structure Conversation.WellFormed (c : Conversation) : Prop where
  name : c.name ≠ [] ∧ c.name.IsInline ∧ '(' ∉ c.name ∧ ')' ∉ c.name
  told : c.lines ≠ []
  lines : ∀ l ∈ c.lines, l.WellFormed
  choices : ∀ p ∈ c.choices, p.1.label ≠ [] ∧ p.1.label.IsInline ∧
    p.1.target ≠ [] ∧ p.1.target.IsInline ∧ ¬ Token.arrow <:+: p.1.target
  placed : ∀ p ∈ c.choices, p.2 < c.lines.length
  ordered : c.choices.Pairwise fun p q => p.2 ≤ q.2

/-- The conversation of a block with well-formed tokens is well-formed. -/
theorem Block.Compiles.wellFormed {globals : Variables} {b : Block} {c : Conversation}
    (h : b.Compiles globals c) (hheader : (Token.header b.name).WellFormed)
    (hbody : ∀ t ∈ b.body, t.WellFormed) : c.WellFormed where
  name := by
    rw [h.yields.name]
    exact hheader
  told := h.lines_ne_nil
  lines := by
    intro l hl
    obtain ⟨saying, hsaying, hspeaker, hline⟩ := exists_mem_of_forall₂ h.yields.lines hl
    have htext : (Token.text saying.2).WellFormed := hbody _ (text_mem_of_mem_sayings hsaying)
    have hinline : saying.1.IsInline := by
      rcases speaker_of_mem_sayings hsaying with hnobody | hnamed
      · rw [hnobody]
        exact ⟨⟨by simp, by simp⟩, by simp⟩
      · exact hbody _ hnamed
    exact Line.wellFormed_of_compile hinline htext.2.1.2 hline
  choices := by
    intro p hp
    rw [h.yields.choices] at hp
    exact hbody _ (choice_mem_of_mem_offers hp).1
  placed := by
    intro p hp
    rw [h.yields.choices] at hp
    have hle := (choice_mem_of_mem_offers hp).2
    have hlength := h.yields.lines.length_eq
    have hpos := List.length_pos_iff.2 h.lines_ne_nil
    omega
  ordered := by
    rw [h.yields.choices]
    exact b.pairwise_offers

/-! ### Whole scripts -/

/-- The offsets of a line are in order as they are made, so that no script is
    refused for them. -/
theorem Compilation.Refuses.ne_invalidOffset {globals : Variables} {s : Compilation} {i : Item}
    {e : CompileError} (h : Refuses globals s i e) {source : Text} (hi : i ∈ Item.ofSource source)
    (offset length : Nat) : e.cause ≠ .invalidOffset offset length := by
  intro hcause
  rcases h.reason hi with ⟨d, -, -, rfl⟩ | ⟨closed, name, -, rfl⟩ | ⟨-, hown⟩
  · cases hcause
  · cases hcause
  · rw [hcause] at hown
    cases hown

/-- The compiler never refuses a script for the offset of a function. Where it
    compiles a script, no two conversations have one name, and each of them is
    well-formed. -/
theorem compile_wellFormed (globals : Variables) (source : Text) :
    (∀ line offset length,
      compile globals source ≠ .error ⟨line, .invalidOffset offset length⟩) ∧
    ∀ cs, compile globals source = .ok cs →
      (cs.map Conversation.name).Nodup ∧ ∀ c ∈ cs, c.WellFormed := by
  constructor
  · intro line offset length h
    rcases compileItems_eq_error h with ⟨before, i, after, s, hitems, -, hrefuses⟩ | ⟨s, -, hs⟩
    · have hi : i ∈ Item.ofSource source := by
        rw [hitems]
        exact List.mem_append_right _ List.mem_cons_self
      exact hrefuses.ne_invalidOffset hi offset length rfl
    · obtain ⟨d, -, -, he⟩ := hs
      cases he
  · intro cs h
    obtain ⟨ts, hts, -, hcs, hnodup⟩ := compileItems_eq_ok_iff.1 h
    have hform : ∀ t ∈ ts, t.WellFormed := by
      rw [← Item.tokens_of_map hts]
      exact fun t ht => Item.wellFormed_of_mem_tokens ht
    constructor
    · have hnames : (Block.ofTokens ts).map Block.name = cs.map Conversation.name :=
        map_eq_map_of_forall₂ hcs fun b c hbc => hbc.yields.name.symm
      rw [← hnames]
      exact hnodup
    · intro c hc
      obtain ⟨b, hb, hcompiles⟩ := exists_mem_of_forall₂ hcs hc
      obtain ⟨hheader, hbody⟩ := Block.mem_of_mem_ofTokens hb
      exact hcompiles.wellFormed (hform _ hheader) fun t ht => hform t (hbody t ht)

/-! A script whose variable holds what would be a header, a choice and a marker. -/

/-- The script. -/
def stallSource : Text := String.toList
  "\x7b\x7bConversationName( Stall )\x7d\x7d
[ Seller ]
é$Cry\x7b\x7bBell\x7d\x7d \x7b\x7b Image( Stall/Open ) \x7d\x7d
- Haggle -> more -> Stall
- Leave -> >>"

/-- What its variable stands for. -/
def stallVariables : Variables := .ofPairs [("Cry".toList, String.toList
  "\n\x7b\x7bConversationName(Stall)\x7d\x7d\n- ( -> ->\x7b\x7bEnd")]

/-- What the script compiles to. -/
def stallSet : List Conversation := (compile stallVariables stallSource).toOption.getD []

/-- The conversation at the stall is well-formed. -/
theorem wellFormed_stall :
    compile stallVariables stallSource = .ok stallSet ∧
    stallSet.map Conversation.choices =
      [[(⟨"Haggle -> more".toList, "Stall".toList⟩, 0), (⟨"Leave".toList, ">>".toList⟩, 0)]] ∧
    (stallSet.map Conversation.name).Nodup ∧ ∀ c ∈ stallSet, c.WellFormed := by
  have hset : compile stallVariables stallSource = .ok stallSet := by decide +kernel
  exact ⟨hset, by decide +kernel, (compile_wellFormed stallVariables stallSource).2 _ hset⟩

end Dialogue
