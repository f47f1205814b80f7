import Dialogue.Proofs.Blocks

/-! # Which scripts compile, and to what

    The compiler carries an open conversation, the line of its header and the
    speaker from line to line. The main statement, `compile_iff_acceptable`,
    says that it accepts just the acceptable scripts, and that its conversations
    are those that the blocks stand for, in order.

    The proof goes by induction on what is still to be read. The invariant is
    `Draft.Holds`: the open conversation is what its block, as far as it was
    read, stands for. Each kind of token keeps it by a lemma of its own.
-/

namespace Dialogue

/-! ### What blocks stand for -/

namespace Block

/-- A block stands for one conversation only. -/
theorem Yields.unique {globals : Variables} {b : Block} {c c' : Conversation}
    (h : b.Yields globals c) (h' : b.Yields globals c') : c = c' := by
  have hlines : c.lines = c'.lines := by
    refine List.right_unique_forall₂' ?_ h.lines h'.lines
    intro saying l l' hl hl'
    have hsame : Except.ok l = Except.ok l' := hl.2.symm.trans hl'.2
    exact Except.ok.inj hsame
  -- The other fields are what the block says, with no choice left.
  have hname : c.name = c'.name := h.name.trans h'.name.symm
  have hchoices : c.choices = c'.choices := h.choices.trans h'.choices.symm
  obtain ⟨name, lines, choices⟩ := c
  obtain ⟨name', lines', choices'⟩ := c'
  cases hname; cases hlines; cases hchoices
  rfl

/-- A block with readable texts stands for a conversation. -/
theorem TextsReadable.exists_yields {globals : Variables} {b : Block}
    (h : b.TextsReadable globals) : ∃ c, b.Yields globals c := by
  have hall : ∀ saying ∈ b.sayings, ∃ l : Line,
      l.speaker = saying.1 ∧ Line.compile globals saying.1 saying.2 = .ok l := by
    intro saying hs
    have hraw : Token.text saying.2 ∈ b.body := text_mem_of_mem_sayings hs
    obtain ⟨l, hl⟩ := (Line.exists_compile_iff saying.1).2 (h _ hraw)
    obtain ⟨s, -, rfl⟩ := Line.compile_eq_ok_iff.1 hl
    exact ⟨_, rfl, hl⟩
  obtain ⟨lines, hlines⟩ := exists_forall₂ hall
  exact ⟨⟨b.name, lines, b.offers⟩, rfl, hlines, rfl⟩

theorem forall₂_compiles_iff {globals : Variables} {bs : List Block} {cs : List Conversation} :
    List.Forall₂ (Compiles globals) bs cs ↔
      (∀ b ∈ bs, b.WellFormed globals) ∧ List.Forall₂ (Yields globals) bs cs := by
  rw [← List.forall₂_and_left]
  constructor
  · exact fun h => h.imp fun _ _ hc => ⟨hc.toWellFormed, hc.yields⟩
  · exact fun h => h.imp fun _ _ hc => ⟨hc.1, hc.2⟩

/-- A token that is a choice needs a text before it. -/
theorem ChoicesFollow.extend {b : Block} {t : Token} (h : b.ChoicesFollow)
    (ht : ∀ c, t.choice? = some c → ∃ raw, .text raw ∈ b.body) : (b.extend t).ChoicesFollow := by
  intro before label target after heq
  rcases List.eq_nil_or_concat' after with rfl | ⟨init, last, rfl⟩
  · -- The choice is the new token itself.
    obtain ⟨hbody, hlast⟩ := List.append_inj' heq rfl
    cases hlast
    rw [← hbody]
    exact ht _ rfl
  · -- The choice was there before, and so was a text above it.
    have heq' : b.body ++ [t] = (before ++ .choice label target :: init) ++ [last] := by
      rw [List.append_assoc, List.cons_append]
      exact heq
    exact h before label target init (List.append_inj' heq' rfl).1

theorem TextsReadable.extend {globals : Variables} {b : Block} {t : Token}
    (h : b.TextsReadable globals) (ht : ∀ raw, t = .text raw → raw.IsReadable globals) :
    (b.extend t).TextsReadable globals := by
  intro raw hraw
  rcases List.mem_append.1 hraw with hraw | hraw
  · exact h raw hraw
  · exact ht raw (List.mem_singleton.1 hraw).symm

end Block

/-! ### Open conversations -/

/-- The open conversation is what the block stands for, as far as it was read. -/
structure Draft.Holds (globals : Variables) (d : Draft) (b : Block) : Prop where
  plain : Block.IsPlain b.body
  follow : b.ChoicesFollow
  readable : b.TextsReadable globals
  yields : b.Yields globals d.conversation
  speaker : d.speaker = Token.speakerAfter b.body

namespace Draft

variable {globals : Variables} {d : Draft} {b : Block}

theorem holds_start (line : Nat) (name : Text) : (start line name).Holds globals ⟨name, []⟩ where
  plain := by intro t ht; cases ht
  follow := by intro before label target after h; simp at h
  readable := by intro raw h; cases h
  yields := ⟨rfl, .nil, rfl⟩
  speaker := rfl

/-- There is a line to show as soon as there was a text. -/
theorem Holds.lines_ne_nil_iff (h : d.Holds globals b) :
    d.conversation.lines ≠ [] ↔ ∃ raw, .text raw ∈ b.body := by
  rw [← b.sayings_ne_nil_iff]
  have hlen := h.yields.lines.length_eq
  rw [← List.length_pos_iff, ← List.length_pos_iff, hlen]

/-- Where there is one, the block may be closed. -/
theorem Holds.compiles (h : d.Holds globals b) (hne : d.conversation.lines ≠ []) :
    b.Compiles globals d.conversation :=
  ⟨⟨h.lines_ne_nil_iff.1 hne, h.follow, h.readable⟩, h.yields⟩

theorem Holds.plain_extend (h : d.Holds globals b) (t : Token) (ht : t.header? = none) :
    Block.IsPlain (b.extend t).body := by
  intro u hu
  rcases List.mem_append.1 hu with hu | hu
  · exact h.plain u hu
  · rw [List.mem_singleton.1 hu]
    exact ht

theorem Holds.setSpeaker (h : d.Holds globals b) (name : Text) :
    Holds globals { d with speaker := name } (b.extend (.speaker name)) where
  plain := h.plain_extend _ rfl
  follow := h.follow.extend (by intro c hc; cases hc)
  readable := h.readable.extend (by intro raw hraw; cases hraw)
  yields := by
    refine ⟨h.yields.name, ?_, ?_⟩
    · rw [Block.sayings_extend]
      simpa [Token.text?] using h.yields.lines
    · rw [Block.offers_extend]
      simpa [Token.choice?] using h.yields.choices
  speaker := by rw [Block.speakerAfter_extend]; rfl

theorem Holds.addLine (h : d.Holds globals b) {raw : Text} {l : Line}
    (hl : Line.compile globals d.speaker raw = .ok l) :
    (d.addLine l).Holds globals (b.extend (.text raw)) where
  plain := h.plain_extend _ rfl
  follow := h.follow.extend (by intro c hc; cases hc)
  readable := by
    refine h.readable.extend ?_
    intro raw' hraw
    cases hraw
    exact (Line.exists_compile_iff d.speaker).1 ⟨l, hl⟩
  yields := by
    have hspeaker : l.speaker = d.speaker := by
      obtain ⟨s, -, rfl⟩ := Line.compile_eq_ok_iff.1 hl
      rfl
    refine ⟨h.yields.name, ?_, ?_⟩
    · rw [Block.sayings_extend]
      refine List.rel_append h.yields.lines (.cons ?_ .nil)
      exact ⟨hspeaker.trans h.speaker, h.speaker ▸ hl⟩
    · rw [Block.offers_extend]
      simpa [Token.choice?, Draft.addLine] using h.yields.choices
  speaker := by rw [Block.speakerAfter_extend]; exact h.speaker

theorem Holds.addChoice (h : d.Holds globals b) (label target : Text)
    (hne : d.conversation.lines ≠ []) :
    ∃ d', d.addChoice? ⟨label, target⟩ = some d' ∧
      d'.Holds globals (b.extend (.choice label target)) := by
  obtain ⟨n, hn⟩ : ∃ n, d.conversation.lines.length = n + 1 :=
    Nat.exists_eq_add_one.2 (List.length_pos_iff.2 hne)
  have hlen : b.sayings.length = n + 1 := h.yields.lines.length_eq.trans hn
  refine ⟨_, by rw [addChoice?, hn], ?_⟩
  constructor
  case plain => exact h.plain_extend _ rfl
  case follow => exact h.follow.extend fun _ _ => h.lines_ne_nil_iff.1 hne
  case readable => exact h.readable.extend (by intro raw hraw; cases hraw)
  case speaker => rw [Block.speakerAfter_extend]; exact h.speaker
  case yields =>
    refine ⟨h.yields.name, ?_, ?_⟩
    · rw [Block.sayings_extend]
      simpa [Token.text?] using h.yields.lines
    · rw [Block.offers_extend, hlen, ← h.yields.choices]
      rfl

end Draft

/-! ### Reading on -/

namespace Compilation

/-- Reads the items and closes what is open behind them. -/
def finish (globals : Variables) (s : Compilation) (items : List Item) :
    Except CompileError (List Conversation) := do
  let s ← items.foldlM (step globals) s
  s.close

variable {globals : Variables} {closed : List Conversation} {d : Draft} {b : Block}

theorem finish_nil (s : Compilation) : s.finish globals [] = s.close := rfl

theorem finish_cons (s : Compilation) (i : Item) (items : List Item) :
    s.finish globals (i :: items) = (do
      let s ← s.step globals i
      s.finish globals items) := by
  simp only [finish, List.foldlM_cons, bind_assoc]

/-- Reading the rest of a script starts from what has been read. -/
theorem compileItems_append {before : List Item} {s : Compilation}
    (hs : before.foldlM (step globals) empty = .ok s) (items : List Item) :
    compileItems globals (before ++ items) = s.finish globals items := by
  rw [compileItems, List.foldlM_append, hs]
  rfl

theorem compileItems_eq_close {items : List Item} {s : Compilation}
    (hs : items.foldlM (step globals) empty = .ok s) : compileItems globals items = s.close := by
  rw [compileItems, hs]
  rfl

theorem close_eq_ok_iff {cs : List Conversation} :
    close ⟨closed, some d⟩ = .ok cs ↔
      d.conversation.lines ≠ [] ∧ cs = closed ++ [d.conversation] := by
  simp only [close, Draft.close, Except.bind_eq_ok_iff]
  cases h : d.conversation.lines with
  | nil => simp [throw, throwThe, MonadExceptOf.throw]
  | cons l ls => simp [pure, Except.pure, eq_comm]

theorem step_error {line : Nat} {e : Cause} (s : Compilation) :
    s.step globals ⟨line, .error e⟩ = .error ⟨line, e⟩ := rfl

/-- A header closes the conversation before it and opens a new one, without a
    speaker. -/
theorem step_header_eq_ok_iff {line : Nat} {name : Text} {s : Compilation} :
    step globals ⟨closed, some d⟩ ⟨line, .ok (.header name)⟩ = .ok s ↔
      d.conversation.lines ≠ [] ∧ (∀ c ∈ closed ++ [d.conversation], c.name ≠ name) ∧
        s = ⟨closed ++ [d.conversation], some (Draft.start line name)⟩ := by
  have hread : step globals ⟨closed, some d⟩ ⟨line, .ok (.header name)⟩ = (do
      let cs ← close ⟨closed, some d⟩
      if (Conversation.find? cs name).isSome then throw ⟨line, .duplicateConversation name⟩
      return ⟨cs, some (Draft.start line name)⟩) := rfl
  simp only [hread, Except.bind_eq_ok_iff, close_eq_ok_iff]
  -- The name is looked up among all conversations that are closed by now.
  have hnew : ∀ cs : List Conversation,
      (Conversation.find? cs name).isSome = true ↔ ¬ ∀ c ∈ cs, c.name ≠ name := by
    intro cs
    rw [Conversation.find?_isSome_iff]
    push Not
    rfl
  constructor
  · intro h
    obtain ⟨_, ⟨hne, rfl⟩, hs⟩ := h
    split at hs
    · cases hs
    · next hfind =>
      cases hs
      exact ⟨hne, not_not.1 (mt (hnew _).2 hfind), rfl⟩
  · intro h
    obtain ⟨hne, hfree, rfl⟩ := h
    refine ⟨_, ⟨hne, rfl⟩, ?_⟩
    rw [if_neg fun hfind => (hnew _).1 hfind hfree]
    rfl

/-- At the beginning, only a header can be read. -/
theorem step_empty_eq_ok_iff {line : Nat} {t : Token} {s : Compilation} :
    empty.step globals ⟨line, .ok t⟩ = .ok s ↔
      ∃ name, t = .header name ∧ s = ⟨[], some (Draft.start line name)⟩ := by
  cases t with
  | header name =>
    constructor
    · intro h
      cases h
      exact ⟨name, rfl, rfl⟩
    · intro h
      obtain ⟨_, hname, rfl⟩ := h
      cases hname
      rfl
  | speaker name => exact ⟨fun h => (by cases h), fun ⟨_, h, _⟩ => (by cases h)⟩
  | choice label target => exact ⟨fun h => (by cases h), fun ⟨_, h, _⟩ => (by cases h)⟩
  | text raw => exact ⟨fun h => (by cases h), fun ⟨_, h, _⟩ => (by cases h)⟩

theorem step_speaker {line : Nat} {name : Text} :
    step globals ⟨closed, some d⟩ ⟨line, .ok (.speaker name)⟩ =
      .ok ⟨closed, some { d with speaker := name }⟩ := rfl

theorem step_text_eq_ok_iff {line : Nat} {raw : Text} {s : Compilation} :
    step globals ⟨closed, some d⟩ ⟨line, .ok (.text raw)⟩ = .ok s ↔
      ∃ l, Line.compile globals d.speaker raw = .ok l ∧ s = ⟨closed, some (d.addLine l)⟩ := by
  have hread : step globals ⟨closed, some d⟩ ⟨line, .ok (.text raw)⟩ = (do
      let l ← (Line.compile globals d.speaker raw).mapError (⟨line, ·⟩)
      return ⟨closed, some (d.addLine l)⟩) := rfl
  rw [hread]
  cases Line.compile globals d.speaker raw with
  | error e => simp [Except.mapError, bind, Except.bind]
  | ok l => simp [Except.mapError, bind, Except.bind, pure, Except.pure, eq_comm]

theorem step_choice_eq_ok_iff {line : Nat} {label target : Text} {s : Compilation} :
    step globals ⟨closed, some d⟩ ⟨line, .ok (.choice label target)⟩ = .ok s ↔
      ∃ d', d.addChoice? ⟨label, target⟩ = some d' ∧ s = ⟨closed, some d'⟩ := by
  have hread : step globals ⟨closed, some d⟩ ⟨line, .ok (.choice label target)⟩ =
      read globals ⟨closed, some d⟩ line (.choice label target) := rfl
  rw [hread]
  cases hd : d.addChoice? ⟨label, target⟩ with
  | none =>
    simp [read, current, hd, bind, Except.bind, pure, Except.pure, throw, throwThe,
      MonadExceptOf.throw]
  | some d' => simp [read, current, hd, bind, Except.bind, pure, Except.pure, eq_comm]

/-- The names of the closed conversations and of the blocks still to come. -/
def names (closed : List Conversation) (blocks : List Block) : List Text :=
  closed.map Conversation.name ++ blocks.map Block.name

/-- A header may follow if its name is not among those of the closed conversations. -/
theorem nodup_names_iff {name : Text} :
    (names closed [⟨name, []⟩]).Nodup ↔
      (closed.map Conversation.name).Nodup ∧ ∀ c ∈ closed, c.name ≠ name := by
  rw [names, List.map_cons, List.map_nil, List.nodup_append]
  constructor
  · intro h
    refine ⟨h.1, ?_⟩
    intro c hc
    exact h.2.2 _ (List.mem_map_of_mem hc) _ (List.mem_singleton.2 rfl)
  · intro h
    refine ⟨h.1, by simp, ?_⟩
    intro n hn m hm
    obtain ⟨c, hc, rfl⟩ := List.mem_map.1 hn
    rw [List.mem_singleton.1 hm]
    exact h.2 c hc

/-- The conversations of the closed blocks, of the open one with what is still to
    be read of it, and of all later ones. No name comes twice. -/
def Completes (globals : Variables) (closed : List Conversation) (b : Block) (items : List Item)
    (cs : List Conversation) : Prop :=
  ∃ ts rest, items.map Item.token = ts.map .ok ∧ cs = closed ++ rest ∧
    List.Forall₂ (Block.Compiles globals) (Block.ofTokens (.header b.name :: (b.body ++ ts))) rest ∧
    (names closed (Block.ofTokens (.header b.name :: (b.body ++ ts)))).Nodup

section Completes

variable {items : List Item} {cs : List Conversation} {line : Nat} {t : Token} {name : Text}

theorem completes_nil_iff (hb : Block.IsPlain b.body) :
    Completes globals closed b [] cs ↔
      ∃ c, b.Compiles globals c ∧ cs = closed ++ [c] ∧ (names closed [b]).Nodup := by
  have hblock : Block.ofTokens (.header b.name :: (b.body ++ [])) = [b] := by
    rw [Block.ofTokens_header hb]
    simp [Block.ofTokens]
  constructor
  · intro h
    obtain ⟨ts, rest, hts, rfl, hrest, hnodup⟩ := h
    obtain rfl : ts = [] := List.map_eq_nil_iff.1 hts.symm
    rw [hblock] at hrest hnodup
    cases hrest with
    | cons hc hnil =>
      cases hnil
      exact ⟨_, hc, rfl, hnodup⟩
  · intro h
    obtain ⟨c, hc, rfl, hnodup⟩ := h
    refine ⟨[], [c], rfl, rfl, ?_, ?_⟩
    · rw [hblock]
      exact .cons hc .nil
    · rw [hblock]
      exact hnodup

/-- A token that is no header goes to the open block. -/
theorem completes_extend_iff :
    Completes globals closed b (⟨line, .ok t⟩ :: items) cs ↔
      Completes globals closed (b.extend t) items cs := by
  have hbody : ∀ ts, (b.extend t).body ++ ts = b.body ++ t :: ts := by
    intro ts
    simp [Block.extend]
  constructor
  · intro h
    obtain ⟨ts, rest, hts, hcs, hrest, hnodup⟩ := h
    obtain ⟨u, ts, rfl, hu, hitems⟩ := List.map_eq_cons_iff.1 hts.symm
    cases hu
    refine ⟨ts, rest, hitems.symm, hcs, ?_, ?_⟩
    · rw [hbody]
      exact hrest
    · rw [hbody]
      exact hnodup
  · intro h
    obtain ⟨ts, rest, hts, hcs, hrest, hnodup⟩ := h
    rw [hbody] at hrest hnodup
    exact ⟨t :: ts, rest, by simp [hts], hcs, hrest, hnodup⟩

/-- A header completes the open block, and opens another. -/
theorem completes_header_iff (hb : Block.IsPlain b.body) :
    Completes globals closed b (⟨line, .ok (.header name)⟩ :: items) cs ↔
      ∃ c, b.Compiles globals c ∧ Completes globals (closed ++ [c]) ⟨name, []⟩ items cs := by
  have hblock : ∀ ts, Block.ofTokens (.header b.name :: (b.body ++ .header name :: ts)) =
      b :: Block.ofTokens (.header name :: ([] ++ ts)) := by
    intro ts
    rw [Block.ofTokens_header hb]
    simp [Token.header?]
  have hnames : ∀ c blocks, b.Compiles globals c →
      names (closed ++ [c]) blocks = names closed (b :: blocks) := by
    intro c blocks hc
    simp [names, hc.yields.name]
  constructor
  · intro h
    obtain ⟨ts, rest, hts, rfl, hrest, hnodup⟩ := h
    obtain ⟨u, ts, rfl, hu, hitems⟩ := List.map_eq_cons_iff.1 hts.symm
    cases hu
    -- The header ends the open block, whose conversation comes first.
    rw [hblock] at hrest hnodup
    cases hrest with
    | @cons _ c _ rest hc hrest =>
      rw [← hnames c _ hc] at hnodup
      exact ⟨c, hc, ts, rest, hitems.symm, by simp, hrest, hnodup⟩
  · intro h
    obtain ⟨c, hc, ts, rest, hts, rfl, hrest, hnodup⟩ := h
    rw [hnames c _ hc] at hnodup
    refine ⟨.header name :: ts, c :: rest, by simp [hts], by simp, ?_, ?_⟩
    · rw [hblock]
      exact .cons hc hrest
    · rw [hblock]
      exact hnodup

theorem not_completes_error {e : Cause} :
    ¬ Completes globals closed b (⟨line, .error e⟩ :: items) cs := by
  intro h
  obtain ⟨ts, rest, hts, -⟩ := h
  obtain ⟨t, _, -, ht, -⟩ := List.map_eq_cons_iff.1 hts.symm
  cases ht

/-- The open block compiles, with some of what is still to be read. -/
theorem Completes.exists_compiles (h : Completes globals closed b items cs)
    (hb : Block.IsPlain b.body) :
    ∃ tail c, Block.Compiles globals ⟨b.name, b.body ++ tail⟩ c := by
  obtain ⟨ts, rest, -, -, hrest, -⟩ := h
  rw [Block.ofTokens_header hb] at hrest
  cases hrest with
  | cons hc _ => exact ⟨_, _, hc⟩

/-- No block that will be closed has the name of a closed one. -/
theorem Completes.names_nodup (h : Completes globals closed b items cs)
    (hb : Block.IsPlain b.body) : (names closed [b]).Nodup := by
  obtain ⟨ts, rest, -, -, -, hnodup⟩ := h
  rw [Block.ofTokens_header hb] at hnodup
  refine hnodup.sublist ?_
  simp [names]

end Completes

/-- Reading on with an open conversation succeeds just where its block can be
    completed. By induction on what is still to be read, with the invariant that
    the open conversation is what its block stands for. -/
theorem finish_eq_ok_iff {items : List Item} {cs : List Conversation} (hd : d.Holds globals b)
    (hnames : (names closed [b]).Nodup) :
    finish globals ⟨closed, some d⟩ items = .ok cs ↔ Completes globals closed b items cs := by
  induction items generalizing closed d b with
  | nil =>
    -- Nothing is left to read, so the block has to be complete as it is.
    rw [finish_nil, close_eq_ok_iff, completes_nil_iff hd.plain]
    constructor
    · intro h
      obtain ⟨hne, rfl⟩ := h
      exact ⟨_, hd.compiles hne, rfl, hnames⟩
    · intro h
      obtain ⟨c, hc, rfl, -⟩ := h
      refine ⟨hd.lines_ne_nil_iff.2 hc.told, ?_⟩
      rw [hd.yields.unique hc.yields]
  | cons i items ih =>
    obtain ⟨line, token⟩ := i
    rw [finish_cons, Except.bind_eq_ok_iff]
    cases token with
    | error e =>
      constructor
      · intro h
        obtain ⟨s, hs, -⟩ := h
        rw [step_error] at hs
        cases hs
      · intro h
        exact absurd h not_completes_error
    | ok t =>
      cases t with
      | header name =>
        rw [completes_header_iff hd.plain]
        have hstart : (Draft.start line name).Holds globals ⟨name, []⟩ :=
          Draft.holds_start line name
        constructor
        · intro hrun
          obtain ⟨s, hs, h⟩ := hrun
          obtain ⟨hne, hfree, rfl⟩ := step_header_eq_ok_iff.1 hs
          -- The closed conversation took over the name of its block.
          have hclosed : ((closed ++ [d.conversation]).map Conversation.name).Nodup := by
            simpa [names, hd.yields.name] using hnames
          have hnodup := nodup_names_iff.2 ⟨hclosed, hfree⟩
          exact ⟨_, hd.compiles hne, (ih hstart hnodup).1 h⟩
        · intro hrun
          obtain ⟨c, hc, h⟩ := hrun
          obtain rfl := hd.yields.unique hc.yields
          have hnodup := h.names_nodup hstart.plain
          have hfree := (nodup_names_iff.1 hnodup).2
          exact ⟨_, step_header_eq_ok_iff.2 ⟨hd.lines_ne_nil_iff.2 hc.told, hfree, rfl⟩,
            (ih hstart hnodup).2 h⟩
      | speaker name =>
        rw [completes_extend_iff, step_speaker]
        have hd' := hd.setSpeaker name
        constructor
        · intro hrun
          obtain ⟨s, hs, h⟩ := hrun
          cases hs
          exact (ih hd' hnames).1 h
        · intro h
          exact ⟨_, rfl, (ih hd' hnames).2 h⟩
      | text raw =>
        -- Whichever way, the text is readable: it compiles here, or the completed
        -- block has it among its texts.
        rw [completes_extend_iff]
        constructor
        · intro hrun
          obtain ⟨s, hs, h⟩ := hrun
          obtain ⟨l, hl, rfl⟩ := step_text_eq_ok_iff.1 hs
          exact (ih (hd.addLine hl) hnames).1 h
        · intro h
          have hplain := hd.plain_extend (.text raw) rfl
          obtain ⟨tail, c, hc⟩ := h.exists_compiles hplain
          have hraw : raw.IsReadable globals := hc.readable raw (by simp [Block.extend])
          obtain ⟨l, hl⟩ := (Line.exists_compile_iff d.speaker).2 hraw
          exact ⟨_, step_text_eq_ok_iff.2 ⟨l, hl, rfl⟩, (ih (hd.addLine hl) hnames).2 h⟩
      | choice label target =>
        -- In the same way there is a text above the choice.
        rw [completes_extend_iff]
        constructor
        · intro hrun
          obtain ⟨s, hs, h⟩ := hrun
          obtain ⟨d₁, hd₁, rfl⟩ := step_choice_eq_ok_iff.1 hs
          have hne : d.conversation.lines ≠ [] := by
            intro hnil
            simp [Draft.addChoice?, hnil] at hd₁
          obtain ⟨d₂, hd₂, hholds⟩ := hd.addChoice label target hne
          rw [hd₁] at hd₂
          cases hd₂
          exact (ih hholds hnames).1 h
        · intro h
          have hplain := hd.plain_extend (.choice label target) rfl
          obtain ⟨tail, c, hc⟩ := h.exists_compiles hplain
          have htext : ∃ raw, .text raw ∈ b.body :=
            hc.follow b.body label target tail (by simp [Block.extend])
          obtain ⟨d', hd', hholds⟩ := hd.addChoice label target
            (hd.lines_ne_nil_iff.2 htext)
          exact ⟨_, step_choice_eq_ok_iff.2 ⟨d', hd', rfl⟩, (ih hholds hnames).2 h⟩

end Compilation

/-! ### Whole scripts -/

theorem compileItems_eq_ok_iff {globals : Variables} {items : List Item}
    {cs : List Conversation} :
    compileItems globals items = .ok cs ↔
      ∃ ts, items.map Item.token = ts.map .ok ∧
        (∀ t, ts.head? = some t → ∃ name, t = .header name) ∧
        List.Forall₂ (Block.Compiles globals) (Block.ofTokens ts) cs ∧
        ((Block.ofTokens ts).map Block.name).Nodup := by
  have hfinish : compileItems globals items = Compilation.empty.finish globals items := rfl
  rw [hfinish]
  cases items with
  | nil =>
    constructor
    · intro h
      cases h
      exact ⟨[], rfl, by simp, .nil, .nil⟩
    · intro h
      obtain ⟨ts, hts, -, hcs, -⟩ := h
      obtain rfl : ts = [] := List.map_eq_nil_iff.1 hts.symm
      cases hcs
      rfl
  | cons i items =>
    obtain ⟨line, token⟩ := i
    rw [Compilation.finish_cons, Except.bind_eq_ok_iff]
    have hstart : ∀ name, (Draft.start line name).Holds globals ⟨name, []⟩ :=
      Draft.holds_start line
    have hnames : ∀ name, (Compilation.names [] [⟨name, []⟩]).Nodup := by
      intro name
      simp [Compilation.names]
    constructor
    -- The first item opens the first block, which has nothing in it yet.
    · intro hrun
      obtain ⟨s, hs, h⟩ := hrun
      cases token with
      | error e =>
        rw [Compilation.step_error] at hs
        cases hs
      | ok t =>
        obtain ⟨name, rfl, rfl⟩ := Compilation.step_empty_eq_ok_iff.1 hs
        obtain ⟨ts, rest, hts, rfl, hrest, hnodup⟩ :=
          (Compilation.finish_eq_ok_iff (hstart name) (hnames name)).1 h
        refine ⟨.header name :: ts, by simp [hts], ?_, hrest, ?_⟩
        · intro t ht
          cases ht
          exact ⟨name, rfl⟩
        · simpa [Compilation.names] using hnodup
    · intro h
      obtain ⟨ts, hts, hhead, hcs, hnodup⟩ := h
      obtain ⟨t, ts, rfl, ht, hitems⟩ := List.map_eq_cons_iff.1 hts.symm
      obtain ⟨name, rfl⟩ := hhead t rfl
      cases ht
      refine ⟨_, Compilation.step_empty_eq_ok_iff.2 ⟨name, rfl, rfl⟩, ?_⟩
      rw [Compilation.finish_eq_ok_iff (hstart name) (hnames name)]
      exact ⟨ts, cs, hitems.symm, rfl, hcs, by simpa [Compilation.names] using hnodup⟩

/-- The conversations of a script are those that its blocks stand for. -/
theorem forall₂_compiles_of_compile {globals : Variables} {source : Text}
    {cs : List Conversation} (h : compile globals source = .ok cs) :
    List.Forall₂ (Block.Compiles globals)
      (Block.ofTokens (Item.tokens (Item.ofSource source))) cs := by
  obtain ⟨ts, hts, -, hcs, -⟩ := compileItems_eq_ok_iff.1 h
  rw [Item.tokens_of_map hts]
  exact hcs

/-- A block that compiles has a line to show. -/
theorem Block.Compiles.lines_ne_nil {globals : Variables} {b : Block} {c : Conversation}
    (h : b.Compiles globals c) : c.lines ≠ [] := by
  have hsayings : b.sayings ≠ [] := b.sayings_ne_nil_iff.2 h.told
  have hlength := h.yields.lines.length_eq
  rw [← List.length_pos_iff] at hsayings ⊢
  omega

/-- A conversation that was compiled has a line. -/
theorem lines_ne_nil_of_compile {globals : Variables} {source : Text} {cs : List Conversation}
    (h : compile globals source = .ok cs) {c : Conversation} (hc : c ∈ cs) : c.lines ≠ [] := by
  obtain ⟨b, -, hb⟩ := exists_mem_of_forall₂ (forall₂_compiles_of_compile h) hc
  exact hb.lines_ne_nil

/-- The conditions on a script, block by block. -/
theorem acceptable_iff {globals : Variables} {items : List Item} :
    Item.Acceptable globals items ↔
      ∃ ts, items.map Item.token = ts.map .ok ∧
        (∀ t, ts.head? = some t → ∃ name, t = .header name) ∧
        (∀ b ∈ Block.ofTokens ts, b.WellFormed globals) ∧
        ((Block.ofTokens ts).map Block.name).Nodup := by
  constructor
  · intro h
    refine ⟨Item.tokens items, Item.map_token_of_said h.said, h.headed, ?_, ?_⟩
    · intro b hb
      refine ⟨h.told b hb, h.follow b hb, ?_⟩
      intro raw hraw
      apply h.readable
      rw [← Block.flatMap_ofTokens h.headed]
      exact List.mem_flatMap.2 ⟨b, hb, List.mem_cons_of_mem _ hraw⟩
    · rw [Block.map_name_ofTokens]
      exact h.distinct
  · intro h
    obtain ⟨ts, hts, hhead, hblocks, hnodup⟩ := h
    obtain rfl := Item.tokens_of_map hts
    constructor
    case said =>
      intro i hi
      have hmem : i.token ∈ (Item.tokens items).map Except.ok := hts ▸ List.mem_map_of_mem hi
      obtain ⟨t, -, ht⟩ := List.mem_map.1 hmem
      exact ⟨t, ht.symm⟩
    case headed => exact hhead
    case distinct =>
      rw [← Block.map_name_ofTokens]
      exact hnodup
    case told => exact fun b hb => (hblocks b hb).told
    case follow => exact fun b hb => (hblocks b hb).follow
    case readable =>
      intro raw hraw
      rw [← Block.flatMap_ofTokens hhead] at hraw
      obtain ⟨b, hb, hraw⟩ := List.mem_flatMap.1 hraw
      rcases List.mem_cons.1 hraw with hraw | hraw
      · cases hraw
      · exact (hblocks b hb).readable raw hraw

/-- A script compiles just where it is acceptable, and then to the conversations
    that its blocks stand for: as many, in the same order, each with the lines
    and choices of its block. -/
theorem compile_iff_acceptable (globals : Variables) (source : Text) :
    ((∃ cs, compile globals source = .ok cs) ↔
      Item.Acceptable globals (Item.ofSource source)) ∧
    ∀ cs, compile globals source = .ok cs ↔
      Item.Acceptable globals (Item.ofSource source) ∧
        List.Forall₂ (Block.Yields globals)
          (Block.ofTokens (Item.tokens (Item.ofSource source))) cs := by
  have hshape : ∀ cs, compile globals source = .ok cs ↔
      Item.Acceptable globals (Item.ofSource source) ∧
        List.Forall₂ (Block.Yields globals)
          (Block.ofTokens (Item.tokens (Item.ofSource source))) cs := by
    intro cs
    rw [compile, compileItems_eq_ok_iff, acceptable_iff]
    constructor
    · intro h
      obtain ⟨ts, hts, hhead, hcs, hnodup⟩ := h
      rw [Item.tokens_of_map hts]
      obtain ⟨hblocks, hyields⟩ := Block.forall₂_compiles_iff.1 hcs
      exact ⟨⟨ts, hts, hhead, hblocks, hnodup⟩, hyields⟩
    · intro h
      obtain ⟨⟨ts, hts, hhead, hblocks, hnodup⟩, hyields⟩ := h
      rw [Item.tokens_of_map hts] at hyields
      exact ⟨ts, hts, hhead, Block.forall₂_compiles_iff.2 ⟨hblocks, hyields⟩, hnodup⟩
  refine ⟨⟨?_, ?_⟩, hshape⟩
  · intro h
    obtain ⟨cs, hcs⟩ := h
    exact ((hshape cs).1 hcs).1
  · -- The readable texts of each block give it a conversation to stand for.
    intro h
    have hyields : ∀ b ∈ Block.ofTokens (Item.tokens (Item.ofSource source)),
        ∃ c, b.Yields globals c := by
      intro b hb
      apply Block.TextsReadable.exists_yields
      intro raw hraw
      apply h.readable
      rw [← Block.flatMap_ofTokens h.headed]
      exact List.mem_flatMap.2 ⟨b, hb, List.mem_cons_of_mem _ hraw⟩
    obtain ⟨cs, hcs⟩ := exists_forall₂ hyields
    exact ⟨cs, (hshape cs).2 ⟨h, hcs⟩⟩

end Dialogue
