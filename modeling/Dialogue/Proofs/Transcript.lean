import Mathlib.Data.List.Nodup
import Dialogue.Proofs.Printing
import Dialogue.Proofs.WellFormed

/-! # Transcripts

    Every well-formed set of conversations can be written as a script that compiles to
    it (`compile_transcript`), whatever characters its texts hold.

    The script is its transcript. Each conversation stands below its header. Each line
    is written as the name of its speaker, a text line, and the choices behind it. The
    text itself does not stand there. It is cut at the places of its functions, and each
    piece is the value of a variable of its own. The text line refers to these variables
    one after the other, with the markers of the functions between them and that of the
    image behind. In front it refers to a variable without text, so that it can be taken
    for nothing but a text line.

    The proof follows the two ways of counting. A function gets back its offset, since
    the pieces in front of it are as long as they were (`Stretch.ofSegments_weave`). A
    choice gets back its place, since the lines in front of it are as many as they were
    (`Draft.Holds.exists_lines`).
-/

namespace Dialogue

/-! ### Names for texts -/

/-- Names for the variables of a transcript. No two of them are the same. -/
structure Naming where
  /-- The name of the variable without text. -/
  blank : Text
  /-- The names of the variables that hold the pieces. -/
  fresh : Nat → Text
  blank_isIdentifier : Text.isIdentifier blank = true
  fresh_isIdentifier : ∀ n, Text.isIdentifier (fresh n) = true
  fresh_injective : ∀ m n, fresh m = fresh n → m = n
  fresh_ne_blank : ∀ n, fresh n ≠ blank

/-- The text between the places of functions. `rest` is the part of the text behind
    the first `consumed` characters. -/
def Invocation.pieces : (consumed : Nat) → (rest : Text) → List Invocation → List Text
  | _, rest, [] => [rest]
  | consumed, rest, i :: later =>
    rest.take (i.offset - consumed) ::
      pieces i.offset (rest.drop (i.offset - consumed)) later

/-- The pieces of the text of a line. -/
def Line.pieces (l : Line) : List Text := Invocation.pieces 0 l.content.text l.content.invocations

/-- The pieces of all texts of a conversation. -/
def Conversation.pieces (c : Conversation) : List Text := c.lines.flatMap Line.pieces

/-- The token that offers a choice. -/
def Choice.token (c : Choice) : Token := .choice c.label c.target

namespace Naming

variable (v : Naming)

/-- References to pieces, from number `n` on, with the functions between them. -/
def weave (n : Nat) : List Invocation → List Segment
  | [] => [.reference (v.fresh n)]
  | i :: later => .reference (v.fresh n) :: .function i.function :: weave (n + 1) later

/-- The segments of a text line whose pieces are numbered from `n` on. -/
def segments (n : Nat) (l : Line) : List Segment :=
  .reference v.blank :: (v.weave n l.content.invocations ++ l.image.toList.map .image)

/-- The text line whose pieces are numbered from `n` on. -/
def textLine (n : Nat) (l : Line) : Text := Segment.printAll (v.segments n l)

/-- What stands below a header, from line `j` of the conversation on. -/
def body (c : Conversation) : (n j : Nat) → List Line → List Token
  | _, _, [] => []
  | n, j, l :: ls =>
    (.speaker l.speaker :: .text (v.textLine n l) :: (c.choicesAt j).map Choice.token) ++
      body c (n + l.pieces.length) (j + 1) ls

/-- The tokens of the transcript, with pieces that are numbered from `n` on. -/
def tokens : (n : Nat) → List Conversation → List Token
  | _, [] => []
  | n, c :: cs => .header c.name :: (v.body c n 0 c.lines ++ tokens (n + c.pieces.length) cs)

/-- The script. -/
def transcript (cs : List Conversation) : Text := Token.printAll (v.tokens 0 cs)

/-- Its variables, each with its text. -/
def pairs (cs : List Conversation) : List (Text × Text) :=
  (v.blank, []) :: (cs.flatMap Conversation.pieces).zipIdx.map fun p => (v.fresh p.2, p.1)

/-- The variables that it is compiled with. -/
def values (cs : List Conversation) : Variables := .ofPairs (v.pairs cs)

/-! ### Values -/

/-- The variables have these texts for values, from number `n` on. -/
structure Binds (globals : Variables) (n : Nat) (texts : List Text) : Prop where
  blank : globals[v.blank]? = some []
  fresh : ∀ k t, texts[k]? = some t → globals[v.fresh (n + k)]? = some t

variable {v} {globals : Variables} {n : Nat} {t : Text} {texts later : List Text}

theorem Binds.head (h : v.Binds globals n (t :: texts)) : globals[v.fresh n]? = some t :=
  h.fresh 0 t rfl

theorem Binds.tail (h : v.Binds globals n (t :: texts)) : v.Binds globals (n + 1) texts where
  blank := h.blank
  fresh := by
    intro k u hu
    have hnext := h.fresh (k + 1) u (by simpa using hu)
    rwa [Nat.add_comm k 1, ← Nat.add_assoc] at hnext

theorem Binds.left (h : v.Binds globals n (texts ++ later)) : v.Binds globals n texts where
  blank := h.blank
  fresh := by
    intro k u hu
    exact h.fresh k u (List.getElem?_append_left (List.getElem?_eq_some_iff.1 hu).1 ▸ hu)

theorem Binds.right (h : v.Binds globals n (texts ++ later)) :
    v.Binds globals (n + texts.length) later where
  blank := h.blank
  fresh := by
    intro k u hu
    have hplace : (texts ++ later)[texts.length + k]? = some u := by
      rw [List.getElem?_append_right (Nat.le_add_right _ _), Nat.add_sub_cancel_left]
      exact hu
    have hlater := h.fresh (texts.length + k) u hplace
    rwa [← Nat.add_assoc] at hlater

end Naming

/-- A name that is paired with one value only has it. -/
theorem Variables.getElem?_ofPairs {pairs : List (Text × Text)} (h : (pairs.map Prod.fst).Nodup)
    {name value : Text} (hmem : (name, value) ∈ pairs) :
    (ofPairs pairs)[name]? = some value := by
  have hsame : ∀ p ∈ pairs, p.1 = name → p = (name, value) := by
    intro p hp hname
    exact List.inj_on_of_nodup_map h hp hmem hname
  -- The pair is among them, so the search finds one, and no other has the name.
  cases hfind : pairs.reverse.find? fun p => p.1 == name with
  | none =>
    have hnone := List.find?_eq_none.1 hfind (name, value) (List.mem_reverse.2 hmem)
    simp at hnone
  | some p =>
    have hp : p ∈ pairs := List.mem_reverse.1 (List.mem_of_find?_eq_some hfind)
    have hname : p.1 = name := by simpa using List.find?_some hfind
    rw [ofPairs, getElem?_insertAll, hfind, hsame p hp hname]
    rfl

namespace Naming

theorem nodup_pairs (v : Naming) (cs : List Conversation) :
    ((v.pairs cs).map Prod.fst).Nodup := by
  have hnames : ((cs.flatMap Conversation.pieces).zipIdx.map fun p => (v.fresh p.2, p.1)).map
      Prod.fst = (List.range' 0 (cs.flatMap Conversation.pieces).length).map v.fresh := by
    rw [List.map_map, ← List.zipIdx_map_snd 0 (cs.flatMap Conversation.pieces), List.map_map]
    rfl
  rw [pairs, List.map_cons, hnames, List.nodup_cons]
  constructor
  · intro hmem
    obtain ⟨n, -, hn⟩ := List.mem_map.1 hmem
    exact v.fresh_ne_blank n hn
  · exact List.Nodup.map (fun m n => v.fresh_injective m n) List.nodup_range'

theorem binds_values (v : Naming) (cs : List Conversation) :
    v.Binds (v.values cs) 0 (cs.flatMap Conversation.pieces) where
  blank := Variables.getElem?_ofPairs (v.nodup_pairs cs) List.mem_cons_self
  fresh := by
    intro k t ht
    refine Variables.getElem?_ofPairs (v.nodup_pairs cs) (List.mem_cons_of_mem _ ?_)
    rw [Nat.zero_add]
    exact List.mem_map.2 ⟨(t, k), List.mem_zipIdx_iff_getElem?.2 ht, rfl⟩

end Naming

/-! ### Text lines -/

namespace Naming

variable {v : Naming} {globals : Variables} {n : Nat} {l : Line}

theorem forall_mem_weave {is : List Invocation} {P : Segment → Prop}
    (hfresh : ∀ n, P (.reference (v.fresh n))) (his : ∀ i ∈ is, P (.function i.function)) :
    ∀ s ∈ v.weave n is, P s := by
  induction is generalizing n with
  | nil =>
    intro s hs
    rw [List.mem_singleton.1 hs]
    exact hfresh n
  | cons i later ih =>
    intro s hs
    rcases List.mem_cons.1 hs with rfl | hs
    · exact hfresh n
    · rcases List.mem_cons.1 hs with rfl | hs
      · exact his i List.mem_cons_self
      · exact ih (fun j hj => his j (List.mem_cons_of_mem i hj)) s hs

theorem forall_mem_segments {P : Segment → Prop} (hblank : P (.reference v.blank))
    (hfresh : ∀ n, P (.reference (v.fresh n)))
    (hfunctions : ∀ i ∈ l.content.invocations, P (.function i.function))
    (himage : ∀ path, l.image = some path → P (.image path)) : ∀ s ∈ v.segments n l, P s := by
  intro s hs
  rcases List.mem_cons.1 hs with rfl | hs
  · exact hblank
  · rcases List.mem_append.1 hs with hs | hs
    · exact forall_mem_weave hfresh hfunctions s hs
    · obtain ⟨path, hpath, rfl⟩ := List.mem_map.1 hs
      exact himage path (Option.mem_toList.1 hpath)

theorem wellFormed_segments (hl : l.WellFormed) : ∀ s ∈ v.segments n l, s.IsMark ∧ s.WellFormed := by
  apply forall_mem_segments
  · exact ⟨trivial, v.blank_isIdentifier⟩
  · exact fun n => ⟨trivial, v.fresh_isIdentifier n⟩
  · exact fun i hi => ⟨trivial, hl.functions i hi⟩
  · intro path hpath
    obtain ⟨hne, hinline, hclose⟩ := hl.image path hpath
    exact ⟨trivial, hne, hinline.1, hclose⟩

theorem newline_not_mem_print (hl : l.WellFormed) : ∀ s ∈ v.segments n l, '\n' ∉ s.print := by
  have hidentifier : ∀ {name : Text}, Text.isIdentifier name = true → '\n' ∉ name :=
    fun hname => Text.not_mem_of_isIdentifier hname (by decide)
  apply forall_mem_segments
  · simpa [Segment.print] using hidentifier v.blank_isIdentifier
  · intro n
    simpa [Segment.print] using hidentifier (v.fresh_isIdentifier n)
  · intro i hi
    have hname := hidentifier (hl.functions i hi)
    simpa [Segment.print, Token.markerOpen, Token.markerClose] using hname
  · intro path hpath
    obtain ⟨-, hinline, -⟩ := hl.image path hpath
    simpa [Segment.print, Token.markerOpen, Token.markerClose, Segment.imageTag] using hinline.2

/-- The text line is taken for one. -/
theorem wellFormed_textLine (hl : l.WellFormed) : (Token.text (v.textLine n l)).WellFormed := by
  have hinline : (v.textLine n l).IsInline := Segment.isInline_printAll (List.cons_ne_nil _ _)
    (wellFormed_segments hl) (newline_not_mem_print hl)
  exact Token.wellFormed_text_of_dollar hinline

end Naming

namespace Stretch

variable {v : Naming} {globals : Variables} {n : Nat}

theorem ofSegment_reference {name value : Text} (h : globals[name]? = some value) :
    ofSegment globals (.reference name) = .ok ⟨value, [], none⟩ := by
  rw [ofSegment, h]

/-- The stretch of pieces and functions is the text again, with the functions at their
    places. By induction on the functions, with the part of the text behind the place of
    the last one. -/
theorem ofSegments_weave {is : List Invocation} {consumed : Nat} {rest : Text}
    (hsorted : is.Pairwise fun i j => i.offset ≤ j.offset) (hlow : ∀ i ∈ is, consumed ≤ i.offset)
    (hhigh : ∀ i ∈ is, i.offset ≤ consumed + rest.length)
    (hvalues : v.Binds globals n (Invocation.pieces consumed rest is)) :
    ∃ s, ofSegments globals (v.weave n is) = .ok s ∧ s.text = rest ∧
      s.invocations.map (Invocation.shift consumed) = is ∧ s.image = none := by
  induction is generalizing consumed rest n with
  | nil =>
    refine ⟨⟨rest, [], none⟩ ++ nil, ?_, ?_, rfl, rfl⟩
    · exact ofSegments_cons (ofSegment_reference hvalues.head) rfl
    · rw [append_nil]
  | cons i later ih =>
    obtain ⟨hfirst, hlater⟩ := List.pairwise_cons.1 hsorted
    have hi := hlow i List.mem_cons_self
    have hi' := hhigh i List.mem_cons_self
    have hlength : (rest.take (i.offset - consumed)).length = i.offset - consumed := by
      rw [List.length_take]
      omega
    have hbound : ∀ j ∈ later,
        j.offset ≤ i.offset + (rest.drop (i.offset - consumed)).length := by
      intro j hj
      have hj' := hhigh j (List.mem_cons_of_mem i hj)
      rw [List.length_drop]
      omega
    obtain ⟨s, hs, htext, hinvocations, himage⟩ := ih hlater hfirst hbound hvalues.tail
    refine ⟨⟨rest.take (i.offset - consumed), [], none⟩ ++ (⟨[], [⟨0, i.function⟩], none⟩ ++ s),
      ?_, ?_, ?_, ?_⟩
    · exact ofSegments_cons (ofSegment_reference hvalues.head) (ofSegments_cons rfl hs)
    · rw [text_append, text_append, htext, List.nil_append, List.take_append_drop]
    · -- The function stands behind the piece, and the rest moves behind it.
      have hoffset : consumed + (i.offset - consumed) = i.offset := by omega
      simp only [invocations_append, List.nil_append, List.length_nil, Invocation.shift_zero,
        List.map_id, List.map_map, Invocation.shift_comp_shift, hlength, hoffset, hinvocations,
        List.map_cons, List.cons_append]
      simp [Invocation.shift, hoffset]
    · rw [image_append, image_append, himage]
      rfl

end Stretch

/-- The text line compiles to the line that it was written for. -/
theorem Naming.compile_textLine {v : Naming} {globals : Variables} {n : Nat} {l : Line}
    (hl : l.WellFormed) (hvalues : v.Binds globals n l.pieces) :
    Line.compile globals l.speaker (v.textLine n l) = .ok l := by
  obtain ⟨s, hs, htext, hinvocations, himage⟩ := Stretch.ofSegments_weave hl.sorted
    (fun _ _ => Nat.zero_le _) (by simpa using hl.bounded) hvalues
  have hlast : Stretch.ofSegments globals (l.image.toList.map .image) = .ok ⟨[], [], l.image⟩ := by
    cases l.image <;> rfl
  have hwhole : Stretch.ofText globals (v.textLine n l) =
      .ok (⟨[], [], none⟩ ++ (s ++ ⟨[], [], l.image⟩)) := by
    rw [textLine, Stretch.ofText_printAll (wellFormed_segments hl)]
    exact Stretch.ofSegments_cons (Stretch.ofSegment_reference hvalues.blank)
      (Stretch.ofSegments_append hs hlast)
  have hsame : (⟨[], [], none⟩ ++ (s ++ ⟨[], [], l.image⟩) : Stretch) =
      ⟨l.content.text, l.content.invocations, l.image⟩ := by
    rw [Invocation.shift_zero, List.map_id] at hinvocations
    ext : 1
    · simp [htext]
    · simp [hinvocations]
    · simp [himage]
  rw [hsame] at hwhole
  exact Line.compile_eq_ok_iff.2 ⟨_, hwhole, rfl⟩

/-! ### Conversations -/

/-- Choices that stand in the order of their places, up to one place more. -/
theorem Conversation.filter_choices_succ {c : Conversation}
    (hordered : c.choices.Pairwise fun p q => p.2 ≤ q.2) (j : Nat) :
    c.choices.filter (fun p => p.2 < j + 1) =
      c.choices.filter (fun p => p.2 < j) ++ (c.choicesAt j).map (·, j) := by
  have hsplit : ∀ ps : List (Choice × Nat), ps.Pairwise (fun p q => p.2 ≤ q.2) →
      ps.filter (fun p => p.2 < j + 1) =
        ps.filter (fun p => p.2 < j) ++ ps.filter (fun p => p.2 == j) := by
    intro ps hps
    induction ps with
    | nil => rfl
    | cons p ps ih =>
      obtain ⟨hfirst, hrest⟩ := List.pairwise_cons.1 hps
      simp only [List.filter_cons, decide_eq_true_eq, beq_iff_eq, ih hrest]
      rcases Nat.lt_trichotomy p.2 j with hlt | heq | hgt
      · rw [if_pos (show p.2 < j + 1 by omega), if_pos hlt, if_neg (show p.2 ≠ j by omega),
          List.cons_append]
      · -- From here on no place is lower.
        have hnone : ps.filter (fun p => p.2 < j) = [] := by
          apply List.filter_eq_nil_iff.2
          intro q hq
          have hle := hfirst q hq
          rw [decide_eq_true_eq]
          omega
        rw [if_pos (show p.2 < j + 1 by omega), if_neg (show ¬ p.2 < j by omega), if_pos heq,
          hnone, List.nil_append, List.nil_append]
      · rw [if_neg (show ¬ p.2 < j + 1 by omega), if_neg (show ¬ p.2 < j by omega),
          if_neg (show p.2 ≠ j by omega)]
  have hplace : (c.choicesAt j).map (·, j) = c.choices.filter fun p => p.2 == j := by
    have hsame : ∀ p ∈ c.choices.filter (fun p => p.2 == j), ((·, j) ∘ Prod.fst) p = id p := by
      intro p hp
      have heq : p.2 = j := by simpa using (List.mem_filter.1 hp).2
      rw [← heq]
      rfl
    rw [choicesAt, List.map_map, List.map_congr_left hsame, List.map_id]
  rw [hsplit c.choices hordered, hplace]

namespace Draft

variable {globals : Variables} {d : Draft} {name : Text} {ts : List Token}

theorem Holds.exists_choices {j : Nat} (hd : d.Holds globals ⟨name, ts⟩)
    (hj : d.conversation.lines.length = j + 1) (choices : List Choice) :
    ∃ d' : Draft, d'.Holds globals ⟨name, ts ++ choices.map Choice.token⟩ ∧
      d'.conversation = ⟨d.conversation.name, d.conversation.lines,
        d.conversation.choices ++ choices.map (·, j)⟩ := by
  induction choices generalizing d ts with
  | nil => exact ⟨d, by simpa using hd, by simp⟩
  | cons c choices ih =>
    have hne : d.conversation.lines ≠ [] := by
      rw [← List.length_pos_iff]
      omega
    obtain ⟨d₁, hadd, hd₁⟩ := hd.addChoice c.label c.target hne
    rw [addChoice?, hj] at hadd
    cases hadd
    obtain ⟨d', hd', hconversation⟩ := ih hd₁ hj
    refine ⟨d', ?_, ?_⟩
    · simpa [Block.extend, Choice.token] using hd'
    · rw [hconversation, List.map_cons, List.append_assoc]
      rfl

/-- A line is read with its speaker and the choices behind it. -/
theorem Holds.exists_line {l : Line} {raw : Text} (hd : d.Holds globals ⟨name, ts⟩)
    (hl : Line.compile globals l.speaker raw = .ok l) (choices : List Choice) :
    ∃ d' : Draft,
      d'.Holds globals
        ⟨name, ts ++ (.speaker l.speaker :: .text raw :: choices.map Choice.token)⟩ ∧
      d'.conversation = ⟨d.conversation.name, d.conversation.lines ++ [l],
        d.conversation.choices ++ choices.map (·, d.conversation.lines.length)⟩ := by
  have hspoken := (hd.setSpeaker l.speaker).addLine hl
  have hcount : (Draft.addLine { d with speaker := l.speaker } l).conversation.lines.length =
      d.conversation.lines.length + 1 := List.length_append
  obtain ⟨d', hd', hconversation⟩ := hspoken.exists_choices hcount choices
  refine ⟨d', ?_, hconversation⟩
  simpa [Block.extend] using hd'

/-- Line by line, what stands below a header gives the conversation back. By induction
    on the lines that are left, with those that were read before them. -/
theorem Holds.exists_lines {v : Naming} {c : Conversation} {ls : List Line} {n : Nat}
    (hd : d.Holds globals ⟨c.name, ts⟩) (hc : c.WellFormed) (before : List Line)
    (hlines : c.lines = before ++ ls) (hvalues : v.Binds globals n (ls.flatMap Line.pieces))
    (hread : d.conversation =
      ⟨c.name, before, c.choices.filter fun p => p.2 < before.length⟩) :
    ∃ d' : Draft, d'.Holds globals ⟨c.name, ts ++ v.body c n before.length ls⟩ ∧
      d'.conversation = c := by
  induction ls generalizing d ts before n with
  | nil =>
    rw [List.append_nil] at hlines
    have hall : c.choices.filter (fun p => p.2 < before.length) = c.choices := by
      apply List.filter_eq_self.2
      intro p hp
      rw [← hlines]
      exact decide_eq_true (hc.placed p hp)
    refine ⟨d, by simpa [Naming.body] using hd, ?_⟩
    rw [hread, hall, ← hlines]
  | cons l ls ih =>
    have hl : l.WellFormed := hc.lines l (by rw [hlines]; simp)
    rw [List.flatMap_cons] at hvalues
    obtain ⟨d₁, hd₁, hread₁⟩ :=
      hd.exists_line (Naming.compile_textLine hl hvalues.left) (c.choicesAt before.length)
    have hcount : (before ++ [l]).length = before.length + 1 := by simp
    have hnext : d₁.conversation = ⟨c.name, before ++ [l],
        c.choices.filter fun p => p.2 < (before ++ [l]).length⟩ := by
      rw [hread₁, hread, hcount, Conversation.filter_choices_succ hc.ordered]
    obtain ⟨d', hd', hend⟩ := ih hd₁ (before ++ [l]) (by simp [hlines]) hvalues.right hnext
    refine ⟨d', ?_, hend⟩
    rw [hcount, List.append_assoc] at hd'
    exact hd'

end Draft

/-! ### Whole transcripts -/

namespace Naming

variable {v : Naming} {globals : Variables} {n : Nat} {c : Conversation} {cs : List Conversation}

theorem mem_body {j : Nat} {ls : List Line} {t : Token} (ht : t ∈ v.body c n j ls) :
    (∃ l ∈ ls, t = .speaker l.speaker ∨ ∃ m, t = .text (v.textLine m l)) ∨
      ∃ p ∈ c.choices, t = p.1.token := by
  induction ls generalizing n j with
  | nil => cases ht
  | cons l ls ih =>
    rcases List.mem_append.1 ht with ht | ht
    · rcases List.mem_cons.1 ht with rfl | ht
      · exact .inl ⟨l, List.mem_cons_self, .inl rfl⟩
      · rcases List.mem_cons.1 ht with rfl | ht
        · exact .inl ⟨l, List.mem_cons_self, .inr ⟨n, rfl⟩⟩
        · obtain ⟨choice, hchoice, rfl⟩ := List.mem_map.1 ht
          exact .inr ⟨_, Conversation.mem_choicesAt.1 hchoice, rfl⟩
    · refine (ih ht).imp_left ?_
      rintro ⟨m, hm, hsays⟩
      exact ⟨m, List.mem_cons_of_mem l hm, hsays⟩

theorem isPlain_body (j : Nat) (ls : List Line) : Block.IsPlain (v.body c n j ls) := by
  intro t ht
  rcases mem_body ht with ⟨l, -, rfl | ⟨m, rfl⟩⟩ | ⟨p, -, rfl⟩ <;> rfl

/-- The block of a conversation in the transcript stands for it. -/
theorem compiles_body (hc : c.WellFormed) (hvalues : v.Binds globals n c.pieces) :
    Block.Compiles globals ⟨c.name, v.body c n 0 c.lines⟩ c := by
  have hstart : (Draft.start 0 c.name).Holds globals ⟨c.name, []⟩ := Draft.holds_start 0 c.name
  obtain ⟨d, hd, hconversation⟩ := hstart.exists_lines hc [] rfl hvalues (by simp [Draft.start])
  have hcompiles := hd.compiles (by rw [hconversation]; exact hc.told)
  rw [hconversation] at hcompiles
  exact hcompiles

theorem forall₂_compiles_tokens (hcs : ∀ c ∈ cs, c.WellFormed)
    (hvalues : v.Binds globals n (cs.flatMap Conversation.pieces)) :
    List.Forall₂ (Block.Compiles globals) (Block.ofTokens (v.tokens n cs)) cs := by
  induction cs generalizing n with
  | nil => exact .nil
  | cons c cs ih =>
    rw [List.flatMap_cons] at hvalues
    have hrest := ih (fun b hb => hcs b (List.mem_cons_of_mem c hb)) hvalues.right
    have hnext : (v.tokens (n + c.pieces.length) cs).takeWhile (fun t => t.header?.isNone) = [] := by
      cases cs <;> rfl
    rw [tokens, Block.ofTokens_header (isPlain_body 0 c.lines), hnext, List.append_nil]
    exact .cons (compiles_body (hcs c List.mem_cons_self) hvalues.left) hrest

theorem wellFormed_tokens (hcs : ∀ c ∈ cs, c.WellFormed) : ∀ t ∈ v.tokens n cs, t.WellFormed := by
  induction cs generalizing n with
  | nil => simp [tokens]
  | cons c cs ih =>
    have hc : c.WellFormed := hcs c List.mem_cons_self
    intro t ht
    rcases List.mem_cons.1 ht with rfl | ht
    · exact hc.name
    · rcases List.mem_append.1 ht with ht | ht
      · rcases mem_body ht with ⟨l, hl, rfl | ⟨m, rfl⟩⟩ | ⟨p, hp, rfl⟩
        · exact (hc.lines l hl).speaker
        · exact wellFormed_textLine (hc.lines l hl)
        · exact hc.choices p hp
      · exact ih (fun b hb => hcs b (List.mem_cons_of_mem c hb)) t ht

end Naming

/-- The transcript of well-formed conversations with names of their own compiles to
    them, whatever their texts, and however its variables are named. -/
theorem compile_transcript (v : Naming) (cs : List Conversation)
    (hnames : (cs.map Conversation.name).Nodup) (hcs : ∀ c ∈ cs, c.WellFormed) :
    compile (v.values cs) (v.transcript cs) = .ok cs := by
  have hitems : (Item.ofSource (v.transcript cs)).map Item.token = (v.tokens 0 cs).map .ok :=
    Item.map_token_printAll (Naming.wellFormed_tokens hcs)
  have hhead : ∀ t, (v.tokens 0 cs).head? = some t → ∃ name, t = .header name := by
    intro t ht
    cases cs with
    | nil => cases ht
    | cons c cs => exact ⟨c.name, (Option.some.inj ht).symm⟩
  have hblocks := Naming.forall₂_compiles_tokens hcs (v.binds_values cs)
  have hblockNames : (Block.ofTokens (v.tokens 0 cs)).map Block.name = cs.map Conversation.name :=
    map_eq_map_of_forall₂ hblocks fun b c hbc => hbc.yields.name.symm
  exact compileItems_eq_ok_iff.2 ⟨_, hitems, hhead, hblocks, hblockNames ▸ hnames⟩

/-! A conversation whose words look like something else wherever they can. -/

/-- Names for variables, of as many letters as their number says. -/
def Naming.strokes : Naming where
  blank := ['E']
  fresh n := List.replicate (n + 1) 'V'
  blank_isIdentifier := by decide
  fresh_isIdentifier := by
    intro n
    rw [Text.isIdentifier_iff]
    refine ⟨by simp, ?_⟩
    intro c hc
    rw [List.eq_of_mem_replicate hc]
    decide
  fresh_injective := by
    intro m n h
    have hlength := congrArg List.length h
    simpa using hlength
  fresh_ne_blank := by
    intro n h
    have hmem : 'E' ∈ List.replicate (n + 1) 'V' := by
      rw [h]
      exact List.mem_singleton_self _
    exact absurd (List.eq_of_mem_replicate hmem) (by decide)

/-- The conversation. -/
def maskSet : List Conversation :=
  [{ name := "# \x7d\x7d".toList
     lines :=
      [{ speaker := "- ] ->".toList
         content :=
          { text := "$\n- é".toList
            invocations := [⟨1, "Image".toList⟩, ⟨1, "ConversationName".toList⟩] }
         image := some "\x7b(\x7d".toList }]
     choices := [(⟨"[ -> ]".toList, ">>".toList⟩, 0), (⟨"#".toList, "\x7b\x7b-".toList⟩, 0)] }]

/-- Its transcript keeps all of them apart. -/
theorem compile_transcript_mask :
    Naming.strokes.transcript maskSet = String.toList
      "\x7b\x7bConversationName(# \x7d\x7d)\x7d\x7d
[- ] ->]
$E$V\x7b\x7bImage\x7d\x7d$VV\x7b\x7bConversationName\x7d\x7d$VVV\x7b\x7bImage(\x7b(\x7d)\x7d\x7d
- [ -> ] -> >>
- # -> \x7b\x7b-" ∧
    compile (Naming.strokes.values maskSet) (Naming.strokes.transcript maskSet) = .ok maskSet := by
  have hset : ∀ c ∈ maskSet, c.WellFormed := by
    intro c hc
    rw [List.mem_singleton.1 hc]
    refine ⟨by decide, by decide, ?_, by decide, by decide, by decide⟩
    intro l hl
    rw [List.mem_singleton.1 hl]
    exact ⟨by decide, by decide, by decide, by decide, by simp; decide⟩
  exact ⟨by decide +kernel, compile_transcript .strokes maskSet (by decide) hset⟩

end Dialogue
