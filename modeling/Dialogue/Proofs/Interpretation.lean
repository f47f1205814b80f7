import Dialogue.Proofs.Acceptance
import Dialogue.Session.Display

/-! # Reading a line aloud

    A second account of what a displayed line says, which knows nothing of
    offsets: the segments of the text line are read from left to right, and each
    says its part at once. Plain text says itself, a variable its value, a
    function what it produces when it is called there, and all else nothing.

    A session does it in two steps instead. The compiler takes the markers out
    and keeps their offsets into the text without them, and the display calls
    the functions and puts the results back in at the offsets. The main
    statement, `display_text_line`, says that the two steps come to the same as
    reading aloud: the same text, the same calls in the same order, the same
    unregistered names.

    The induction is on the pieces of the line (`splice_ofPieces`). It is about
    the text in front that was passed by the compiler but not yet let out by the
    display, since markers at one place share an offset.
-/

namespace Dialogue

variable {σ : Type}

/-! ### Reading aloud -/

/-- The same with a text in front. -/
def Spliced.prepend (t : Text) (s : Spliced σ) : Spliced σ := { s with text := t ++ s.text }

/-- Reads segments aloud, from left to right, under these variables. -/
def Registry.interpret (r : Registry σ) (scene : Scene) (globals : Variables) :
    List Segment → σ → Spliced σ
  | [], w => ⟨[], [], [], w⟩
  | .literal t :: rest, w => (r.interpret scene globals rest w).prepend t
  | .reference name :: rest, w =>
    (r.interpret scene globals rest w).prepend (globals[name]?.getD [])
  | .image _ :: rest, w => r.interpret scene globals rest w
  | .function f :: rest, w =>
    match r[f]? with
    | none =>
      let s := r.interpret scene globals rest w
      { s with missing := f :: s.missing }
    | some g =>
      let result := g.call scene w
      let s := r.interpret scene globals rest result.2
      { s with text := result.1.getD [] ++ s.text, called := f :: s.called }

/-- The name in a function marker. -/
def Segment.function? : Segment → Option Text
  | .function f => some f
  | _ => none

namespace Registry

variable (r : Registry σ) (scene : Scene) (globals : Variables)

/-- The functions that are called are the registered ones, in the order of their
    markers. -/
theorem called_interpret (segments : List Segment) (w : σ) :
    (r.interpret scene globals segments w).called =
      (segments.filterMap Segment.function?).filter fun f => r.contains f := by
  induction segments generalizing w with
  | nil => rfl
  | cons s rest ih =>
    cases s with
    | literal t => exact ih w
    | reference name => exact ih w
    | image path => exact ih w
    | function f =>
      have hname : Segment.function? (.function f) = some f := rfl
      rw [List.filterMap_cons_some hname, List.filter_cons,
        Std.ExtTreeMap.contains_eq_isSome_getElem?]
      cases hf : r[f]? with
      | none => simpa [interpret, hf] using ih w
      | some g => simpa [interpret, hf] using ih (g.call scene w).2

/-- The names that are missing are the unregistered ones, one for each of their
    markers. -/
theorem missing_interpret (segments : List Segment) (w : σ) :
    (r.interpret scene globals segments w).missing =
      (segments.filterMap Segment.function?).filter fun f => !r.contains f := by
  induction segments generalizing w with
  | nil => rfl
  | cons s rest ih =>
    cases s with
    | literal t => exact ih w
    | reference name => exact ih w
    | image path => exact ih w
    | function f =>
      have hname : Segment.function? (.function f) = some f := rfl
      rw [List.filterMap_cons_some hname, List.filter_cons,
        Std.ExtTreeMap.contains_eq_isSome_getElem?]
      cases hf : r[f]? with
      | none => simpa [interpret, hf] using ih w
      | some g => simpa [interpret, hf] using ih (g.call scene w).2

/-! ### Splicing what was compiled -/

theorem prepend_prepend (t u : Text) (s : Spliced σ) :
    (s.prepend u).prepend t = s.prepend (t ++ u) := by
  simp [Spliced.prepend]

/-- A function whose offset lies right behind the text in front lets that text
    out and then says its part. -/
theorem splice_cons (consumed : Nat) (before rest : Text) (f : Text) (later : List Invocation)
    (w : σ) :
    r.splice scene consumed (before ++ rest) (⟨consumed + before.length, f⟩ :: later) w =
      match r[f]? with
      | none =>
        let s := r.splice scene (consumed + before.length) rest later w
        { s with text := before ++ s.text, missing := f :: s.missing }
      | some g =>
        let result := g.call scene w
        let s := r.splice scene (consumed + before.length) rest later result.2
        { s with text := before ++ result.1.getD [] ++ s.text, called := f :: s.called } := by
  have hoffset : consumed + before.length - consumed = before.length := by omega
  cases hf : r[f]? with
  | none => simp only [splice, hoffset, List.take_left, List.drop_left, hf]
  | some g => simp only [splice, hoffset, List.take_left, List.drop_left, hf]

theorem splice_ofPieces {ps : List Piece} {st : Stretch}
    (h : Stretch.ofPieces globals ps = .ok st) :
    ∃ segments : List Segment, ps.map Piece.meaning = segments.map .ok ∧
      ∀ (consumed : Nat) (before : Text) (w : σ),
        r.splice scene consumed (before ++ st.text)
            (st.invocations.map (Invocation.shift (consumed + before.length))) w =
          (r.interpret scene globals segments w).prepend before := by
  induction ps generalizing st with
  | nil =>
    cases h
    refine ⟨[], rfl, ?_⟩
    intro consumed before w
    simp [Stretch.nil, splice, interpret, Spliced.prepend]
  | cons p ps ih =>
    simp only [Stretch.ofPieces, Except.bind_eq_ok_iff] at h
    obtain ⟨s, hs, a, ha, b, hb, h⟩ := h
    cases h
    obtain ⟨segments, hsegments, hsplice⟩ := ih hb
    refine ⟨s :: segments, by simp [hs, hsegments], ?_⟩
    intro consumed before w
    have hshift : ∀ n m : Nat, (b.invocations.map (Invocation.shift n)).map (Invocation.shift m) =
        b.invocations.map (Invocation.shift (m + n)) := by
      intro n m
      rw [List.map_map, Invocation.shift_comp_shift]
    -- What the piece adds to the text joins the text in front.
    have hplain : ∀ t : Text, a = ⟨t, [], none⟩ →
        r.splice scene consumed (before ++ (a ++ b).text)
            ((a ++ b).invocations.map (Invocation.shift (consumed + before.length))) w =
          (r.interpret scene globals segments w).prepend (before ++ t) := by
      intro t hat
      have hlen : consumed + before.length + t.length = consumed + (before ++ t).length := by
        rw [List.length_append]
        omega
      rw [Stretch.text_append, Stretch.invocations_append, hat, List.nil_append, hshift, hlen,
        ← List.append_assoc]
      exact hsplice consumed (before ++ t) w
    cases s with
    | literal t =>
      cases ha
      rw [hplain t rfl, interpret, prepend_prepend]
    | reference name =>
      rw [Stretch.ofSegment] at ha
      cases hvalue : globals[name]? with
      | none => rw [hvalue] at ha; cases ha
      | some value =>
        rw [hvalue] at ha
        cases ha
        rw [hplain value rfl, interpret, prepend_prepend, hvalue]
        rfl
    | image path =>
      cases ha
      have himage := hsplice consumed before w
      simpa [interpret] using himage
    | function f =>
      cases ha
      -- The function lets out the text in front, and nothing is left there.
      have hrest := hsplice (consumed + before.length) []
      simp only [List.nil_append, List.length_nil, Nat.add_zero] at hrest
      have hstep := r.splice_cons scene consumed before b.text f
        (b.invocations.map (Invocation.shift (consumed + before.length))) w
      have hlist : ((⟨[], [⟨0, f⟩], none⟩ ++ b : Stretch).invocations.map
            (Invocation.shift (consumed + before.length))) =
          ⟨consumed + before.length, f⟩ ::
            b.invocations.map (Invocation.shift (consumed + before.length)) := by
        simp [Invocation.shift]
      rw [hlist, Stretch.text_append, List.nil_append, hstep, interpret]
      cases hf : r[f]? with
      | none => simp [Spliced.prepend, hrest]
      | some g => simp [Spliced.prepend, hrest]

/-- Running the functions of a compiled line is reading its segments aloud. -/
theorem run_eq_interpret {speaker raw : Text} {l : Line}
    (h : Line.compile globals speaker raw = .ok l) :
    ∃ segments : List Segment, (Piece.ofText raw).map Piece.meaning = segments.map .ok ∧
      ∀ w, r.run scene l.content w = r.interpret scene globals segments w := by
  obtain ⟨st, hst, rfl⟩ := Line.compile_eq_ok_iff.1 h
  obtain ⟨segments, hsegments, hsplice⟩ := r.splice_ofPieces scene globals hst
  refine ⟨segments, hsegments, ?_⟩
  intro w
  -- The invocations of a stretch are in order already, so sorting changes nothing.
  have hordered : (st.toLine speaker).content.ordered = st.invocations := by
    apply List.mergeSort_of_pairwise
    refine (Stretch.ordered_ofPieces hst).sorted.imp ?_
    intro i j hij
    exact decide_eq_true hij
  have hwhole := hsplice 0 [] w
  simp only [List.nil_append, List.length_nil, Nat.add_zero, Invocation.shift_zero, List.map_id]
    at hwhole
  rw [run, hordered]
  exact hwhole

end Registry

/-! ### Displaying a text line -/

/-- What the display of line `index` of a conversation comes to when it is read
    aloud. -/
def Stage.recite (h : Host σ) (a : Audience) (s : Stage) (c : Conversation) (l : Line)
    (globals : Variables) (segments : List Segment) (w : σ) : Outcome σ :=
  let scene := h.functions.scene { s with busy := true }
  let run := h.functions.interpret scene globals segments w
  let line : DisplayedLine := ⟨l.speaker, run.text, l.image⟩
  let answer := h.present a.view line run.world
  { stage := { s with
      busy := answer.1 == .revealing, pending := c.choicesAt s.lineIndex, shown := some line }
    world := answer.2
    events := run.called.map (.called · scene) ++
      run.missing.flatMap (fun f => a.report (.missingFunction f s.lineIndex c.name)) ++
      a.display c s.lineIndex line }

/-- Whenever a session displays line `j` of conversation `i` of a compiled set,
    it reads aloud the segments of text `j` below header `i` of the script, under
    the variables that the set was compiled with: the view gets what they say,
    the functions are called in the order of their markers, and the names that
    are reported missing are those of the markers whose function is not
    registered, one report for each marker. -/
theorem display_text_line (h : Host σ) (a : Audience) (s : Stage) (w : σ)
    {globals : Variables} {source : Text} {i : Nat} {b : Block} {speaker raw : Text}
    (hset : compile globals source = .ok s.conversations) (hcurrent : s.current = some i)
    (hblock : (Block.ofTokens (Item.tokens (Item.ofSource source)))[i]? = some b)
    (hraw : b.sayings[s.lineIndex]? = some (speaker, raw)) :
    ∃ (segments : List Segment) (c : Conversation) (l : Line),
      (Piece.ofText raw).map Piece.meaning = segments.map .ok ∧
      s.conversation? = some c ∧ s.line? = some l ∧ l.speaker = speaker ∧
      s.display h a w = s.recite h a c l globals segments w ∧
      ∀ scene,
        (h.functions.interpret scene globals segments w).called =
          (segments.filterMap Segment.function?).filter (fun f => h.functions.contains f) ∧
        (h.functions.interpret scene globals segments w).missing =
          (segments.filterMap Segment.function?).filter (fun f => !h.functions.contains f) := by
  obtain ⟨c, hc, hcomp⟩ := exists_getElem?_of_forall₂ (forall₂_compiles_of_compile hset).flip hblock
  obtain ⟨l, hl, hspeaker, hline⟩ := exists_getElem?_of_forall₂ hcomp.yields.lines.flip hraw
  have hconversation : s.conversation? = some c := by
    rw [Stage.conversation?, hcurrent]
    exact hc
  have hline? : s.line? = some l := by
    rw [Stage.line?, hconversation]
    exact hl
  let scene := h.functions.scene { s with busy := true }
  obtain ⟨segments, hsegments, hrun⟩ := h.functions.run_eq_interpret scene globals hline
  refine ⟨segments, c, l, hsegments, hconversation, hline?, hspeaker, ?_, ?_⟩
  · rw [Stage.display_eq_displayLine hconversation hline?]
    simp only [Stage.displayLine, Stage.recite, hrun w, scene]
  · intro scene
    exact ⟨h.functions.called_interpret scene globals segments w,
      h.functions.missing_interpret scene globals segments w⟩

/-! A line with a value that looks like a variable, a function that counts its
    calls and is run twice at one place, and a name that is not registered. -/

/-- The line, as it stands in the script. -/
def tollLine : Text :=
  "é$Price\x7b\x7bCount\x7d\x7d\x7b\x7bBell\x7d\x7d\x7b\x7bCount\x7d\x7d!".toList

/-- A script of that line only. -/
def tollSource : Text :=
  "\x7b\x7bConversationName(Toll)\x7d\x7d\n[Clerk]\n".toList ++ tollLine

/-- What its variable stands for. -/
def tollVariables : Variables := .ofPairs [("Price".toList, "$5".toList)]

/-- A host whose world is the number of calls so far. -/
def tollHost : Host Nat where
  functions := (∅ : Registry Nat).insert "Count".toList
    (.text fun _ n => (List.replicate n 'ü', n + 1))
  reveal := fun _ _ n => (.complete, n)

/-- The stage at that line. -/
def tollStage : Stage :=
  { Stage.idle ∅ with
    conversations := (compile tollVariables tollSource).toOption.getD []
    current := some 0 }

/-- What the line is made of. -/
def tollSegments : List Segment :=
  [.literal ['é'], .reference "Price".toList, .function "Count".toList, .function "Bell".toList,
    .function "Count".toList, .literal ['!']]

/-- The line about the toll is read aloud. -/
theorem display_toll :
    compile tollVariables tollSource = .ok tollStage.conversations ∧
    (∃ (segments : List Segment) (c : Conversation) (l : Line),
      tollStage.display tollHost ⟨some [], 1, 1⟩ 1 =
        tollStage.recite tollHost ⟨some [], 1, 1⟩ c l tollVariables segments 1 ∧
      l.speaker = "Clerk".toList) ∧
    (tollStage.display tollHost ⟨some [], 1, 1⟩ 1).stage.shown =
      some ⟨"Clerk".toList, "é$5üüü!".toList, none⟩ := by
  have hset : compile tollVariables tollSource = .ok tollStage.conversations := by decide +kernel
  have hblock : (Block.ofTokens (Item.tokens (Item.ofSource tollSource)))[0]? =
      some ⟨"Toll".toList, [.speaker "Clerk".toList, .text tollLine]⟩ := by decide +kernel
  have hraw : (Block.sayings ⟨"Toll".toList, [.speaker "Clerk".toList, .text tollLine]⟩)[0]? =
      some ("Clerk".toList, tollLine) := by decide +kernel
  obtain ⟨segments, c, l, hsegments, -, hline, hspeaker, hdisplay, -⟩ :=
    display_text_line tollHost ⟨some [], 1, 1⟩ tollStage 1 hset rfl hblock hraw
  refine ⟨hset, ⟨segments, c, l, hdisplay, hspeaker⟩, ?_⟩
  have himage : l.image = none := by
    have hnone : tollStage.line?.map Line.image = some none := by decide +kernel
    rw [hline] at hnone
    exact Option.some.inj hnone
  have hread : segments = tollSegments := by
    have hpieces : (Piece.ofText tollLine).map Piece.meaning = tollSegments.map .ok := by
      decide +kernel
    refine List.map_injective_iff.2 ?_ (hsegments.symm.trans hpieces)
    intro x y hxy
    exact Except.ok.inj hxy
  have hshown : (tollStage.recite tollHost ⟨some [], 1, 1⟩ c l tollVariables segments 1).stage.shown =
      some ⟨l.speaker, _, l.image⟩ := rfl
  rw [hdisplay, hshown, hspeaker, himage, hread]
  decide +kernel

end Dialogue
