import Dialogue.Proofs.Calls

/-! # Insertion from the end

    The functions of a line are run on the way through its text, and each result goes behind
    all that was let out so far. There is another way to put the results in, which needs no
    count of what was let out: all functions are run first, and the results are then
    inserted into the text of the line from the last to the first. Since nothing in front of
    an insertion has moved yet, each goes to its offset, or to the end of a text that is
    shorter.

    The main statement, `Registry.run_inserts_backwards`, says that both ways give the same
    text. What stands between them is the result in chunks (`Chunk`), each kept from the text
    or inserted, with every insertion where its offset has it. Running the functions of a
    line in order comes to such chunks (`Registry.exists_chunks_splice`), and so does
    inserting from the end (`Insertion.insertAll_eq_of_placed`). The chunks also show that
    the text of the line is kept as it was.
-/

namespace Dialogue

variable {σ : Type}

/-! ### Inserting texts -/

/-- A text that is to be put into another one, behind its first `offset` characters. -/
structure Insertion where
  offset : Nat
  text : Text

namespace Insertion

/-- Puts the text in at its offset, though no farther than `limit`. -/
def insert (x : Insertion) (limit : Nat) (t : Text) : Text :=
  t.take (min x.offset limit) ++ x.text ++ t.drop (min x.offset limit)

/-- Puts all texts in, from the last to the first. An offset behind the end counts as the end
    of the text that there was before. -/
def insertAll (t : Text) (xs : List Insertion) : Text := xs.foldr (insert · t.length) t

theorem insert_append {x : Insertion} {limit : Nat} {front : Text}
    (h : front.length = min x.offset limit) (later : Text) :
    x.insert limit (front ++ later) = front ++ x.text ++ later := by
  rw [insert, ← h, List.take_left, List.drop_left]

end Insertion

/-! ### Chunks -/

/-- A part of a text into which others were put. -/
inductive Chunk
  | kept (t : Text)
  | inserted (x : Insertion)

namespace Chunk

/-- How the part reads. -/
def text : Chunk → Text
  | kept t => t
  | inserted x => x.text

/-- What the part has of the text from before. -/
def old : Chunk → Text
  | kept t => t
  | inserted _ => []

/-- What was put in, if the part is that. -/
def insertion? : Chunk → Option Insertion
  | kept _ => none
  | inserted x => some x

/-- Behind the first `start` characters of a text with `limit` characters, each part that was
    put in stands at its offset, or at the end if the text ends before. -/
def Placed (start limit : Nat) (chunks : List Chunk) : Prop :=
  ∀ before x after, chunks = before ++ inserted x :: after →
    start + (before.flatMap old).length = min x.offset limit

variable {start limit : Nat} {chunks : List Chunk}

theorem placed_nil : Placed start limit [] := by
  intro before x after h
  simp at h

theorem placed_kept {t : Text} (h : Placed (start + t.length) limit chunks) :
    Placed start limit (kept t :: chunks) := by
  intro before x after hsplit
  cases before with
  | nil => cases hsplit
  | cons chunk before =>
    obtain ⟨rfl, rfl⟩ := List.cons.inj hsplit
    have hbefore := h before x after rfl
    simp only [List.flatMap_cons, List.length_append, old]
    omega

theorem placed_inserted {x : Insertion} (hx : start = min x.offset limit)
    (h : Placed start limit chunks) : Placed start limit (inserted x :: chunks) := by
  intro before y after hsplit
  cases before with
  | nil =>
    cases hsplit
    exact hx
  | cons chunk before =>
    obtain ⟨rfl, rfl⟩ := List.cons.inj hsplit
    simpa [old] using h before y after rfl

theorem Placed.tail_of_kept {t : Text} (h : Placed start limit (kept t :: chunks)) :
    Placed (start + t.length) limit chunks := by
  intro before x after hsplit
  have hbefore := h (kept t :: before) x after (by rw [hsplit]; rfl)
  simp only [List.flatMap_cons, List.length_append, old] at hbefore
  omega

theorem Placed.tail_of_inserted {x : Insertion} (h : Placed start limit (inserted x :: chunks)) :
    start = min x.offset limit ∧ Placed start limit chunks := by
  refine ⟨?_, ?_⟩
  · simpa using h [] x chunks rfl
  · intro before y after hsplit
    have hbefore := h (inserted x :: before) y after (by rw [hsplit]; rfl)
    simpa [old] using hbefore

end Chunk

/-- Inserting from the last to the first gives chunks that are placed. -/
theorem Insertion.insertAll_eq_of_placed (front : Text) {limit : Nat} {chunks : List Chunk}
    (hplaced : Chunk.Placed front.length limit chunks)
    (hlimit : (front ++ chunks.flatMap Chunk.old).length = limit) :
    insertAll (front ++ chunks.flatMap Chunk.old) (chunks.filterMap Chunk.insertion?) =
      front ++ chunks.flatMap Chunk.text := by
  induction chunks generalizing front with
  | nil => rfl
  | cons chunk chunks ih =>
    cases chunk with
    | kept t =>
      have hnext : Chunk.Placed (front ++ t).length limit chunks := by
        rw [List.length_append]
        exact hplaced.tail_of_kept
      have hwhole : ((front ++ t) ++ chunks.flatMap Chunk.old).length = limit := by
        simpa [Chunk.old] using hlimit
      have hnone : Chunk.insertion? (.kept t) = none := rfl
      rw [List.filterMap_cons_none hnone]
      simpa [Chunk.old, Chunk.text] using ih (front ++ t) hnext hwhole
    | inserted x =>
      -- All that is behind it was put in, and what is in front has not moved.
      obtain ⟨hx, hnext⟩ := hplaced.tail_of_inserted
      have hlater : insertAll (front ++ chunks.flatMap Chunk.old)
          (chunks.filterMap Chunk.insertion?) = front ++ chunks.flatMap Chunk.text :=
        ih front hnext hlimit
      have hlength : (front ++ chunks.flatMap Chunk.old).length = limit := hlimit
      show insert x (front ++ chunks.flatMap Chunk.old).length
        (insertAll (front ++ chunks.flatMap Chunk.old) (chunks.filterMap Chunk.insertion?)) = _
      rw [hlater, hlength, insert_append hx, List.append_assoc]
      rfl

/-! ### Running the functions first -/

namespace Registry

variable (r : Registry σ) (scene : Scene)

/-- Calls the function of that name, if there is one: the text that it produces, if it does,
    and the world after it. -/
def invoke (name : Text) (w : σ) : Option Text × σ :=
  match r[name]? with
  | none => (none, w)
  | some f => f.call scene w

/-- Calls the functions one after the other: the texts that they produce, each with the
    offset at which it is to go, and the world after all calls. -/
def results : List Invocation → σ → List Insertion × σ
  | [], w => ([], w)
  | i :: later, w =>
    let result := r.invoke scene i.function w
    let others := results later result.2
    ((result.1.map (Insertion.mk i.offset)).toList ++ others.1, others.2)

/-- A function lets the text up to its offset pass, and then its result is put there. -/
theorem splice_cons_eq (consumed : Nat) (rest : Text) (i : Invocation) (later : List Invocation)
    (w : σ) :
    let passed := rest.take (i.offset - consumed)
    let ahead := rest.drop (i.offset - consumed)
    let result := r.invoke scene i.function w
    let s := r.splice scene (consumed + passed.length) ahead later result.2
    (r.splice scene consumed rest (i :: later) w).text = passed ++ result.1.getD [] ++ s.text ∧
      (r.splice scene consumed rest (i :: later) w).world = s.world := by
  cases hf : r[i.function]? with
  | none => simp [splice, invoke, hf]
  | some f => simp [splice, invoke, hf]

/-- On the way through a text the same functions are called in the same worlds. -/
theorem world_splice (consumed : Nat) (rest : Text) (is : List Invocation) (w : σ) :
    (r.splice scene consumed rest is w).world = (r.results scene is w).2 := by
  induction is generalizing consumed rest w with
  | nil => rfl
  | cons i later ih =>
    obtain ⟨-, hworld⟩ := r.splice_cons_eq scene consumed rest i later w
    rw [hworld]
    exact ih _ _ _

/-- Functions in the order of their offsets leave what was not let out yet in chunks. -/
theorem exists_chunks_splice (consumed : Nat) (rest : Text) {is : List Invocation} (w : σ)
    (hsorted : is.Pairwise fun i j => i.offset ≤ j.offset)
    (hahead : ∀ i ∈ is, consumed ≤ i.offset) :
    ∃ chunks : List Chunk,
      chunks.flatMap Chunk.text = (r.splice scene consumed rest is w).text ∧
      chunks.flatMap Chunk.old = rest ∧
      chunks.filterMap Chunk.insertion? = (r.results scene is w).1 ∧
      Chunk.Placed consumed (consumed + rest.length) chunks := by
  induction is generalizing consumed rest w with
  | nil =>
    refine ⟨[.kept rest], ?_, ?_, rfl, Chunk.placed_kept Chunk.placed_nil⟩
    · exact List.append_nil rest
    · exact List.append_nil rest
  | cons i later ih =>
    obtain ⟨hnext, hsorted⟩ := List.pairwise_cons.1 hsorted
    have hi : consumed ≤ i.offset := hahead i List.mem_cons_self
    let passed := rest.take (i.offset - consumed)
    let ahead := rest.drop (i.offset - consumed)
    have hrest : passed ++ ahead = rest := List.take_append_drop _ _
    have hlimit : consumed + passed.length + ahead.length = consumed + rest.length := by
      rw [← hrest, List.length_append]
      omega
    -- The offset is reached, or the text is at its end.
    have hpassed : consumed + passed.length = min i.offset (consumed + rest.length) := by
      rw [List.length_take]
      omega
    have hlater : ∀ j ∈ later, consumed + passed.length ≤ j.offset := by
      intro j hj
      have hij := hnext j hj
      omega
    obtain ⟨chunks, htext, hold, hinserted, hplaced⟩ :=
      ih (consumed + passed.length) ahead (r.invoke scene i.function w).2 hsorted hlater
    rw [hlimit] at hplaced
    have hsplice := (r.splice_cons_eq scene consumed rest i later w).1
    rw [hsplice, ← htext, results, ← hinserted]
    cases (r.invoke scene i.function w).1 with
    | none =>
      refine ⟨.kept passed :: chunks, ?_, ?_, rfl, Chunk.placed_kept hplaced⟩
      · simp [Chunk.text, passed]
      · rw [List.flatMap_cons, hold]
        exact hrest
    | some t =>
      refine ⟨.kept passed :: .inserted ⟨i.offset, t⟩ :: chunks, ?_, ?_, rfl,
        Chunk.placed_kept (Chunk.placed_inserted hpassed hplaced)⟩
      · simp [Chunk.text, passed]
      · rw [List.flatMap_cons, List.flatMap_cons, hold]
        exact hrest

end Registry

/-! ### In the order of the offsets -/

namespace Invocation

theorem offset_le_trans (i j k : Invocation) : decide (i.offset ≤ j.offset) = true →
    decide (j.offset ≤ k.offset) = true → decide (i.offset ≤ k.offset) = true := by
  simp only [decide_eq_true_eq]
  omega

theorem offset_le_total (i j : Invocation) :
    (decide (i.offset ≤ j.offset) || decide (j.offset ≤ i.offset)) = true := by
  simp only [Bool.or_eq_true, decide_eq_true_eq]
  omega

end Invocation

namespace Content

open Invocation

variable (c : Content)

theorem pairwise_ordered : c.ordered.Pairwise fun i j => i.offset ≤ j.offset :=
  (List.pairwise_mergeSort offset_le_trans offset_le_total c.invocations).imp of_decide_eq_true

/-- Functions at one offset keep their order. -/
theorem filter_ordered (n : Nat) :
    c.ordered.filter (·.offset == n) = c.invocations.filter (·.offset == n) := by
  -- They are in order, so they also stand in the sorted list, and there are no others.
  let here : Invocation → Bool := (·.offset == n)
  have hequal : (c.invocations.filter here).Pairwise
      fun i j => decide (i.offset ≤ j.offset) = true := by
    apply List.pairwise_of_forall_mem_list
    intro i hi j hj
    have hi : i.offset = n := beq_iff_eq.1 (List.mem_filter.1 hi).2
    have hj : j.offset = n := beq_iff_eq.1 (List.mem_filter.1 hj).2
    exact decide_eq_true (by omega)
  have hsublist : (c.invocations.filter here).Sublist c.ordered :=
    List.sublist_mergeSort offset_le_trans offset_le_total hequal List.filter_sublist
  have hagain : (c.invocations.filter here).Sublist (c.ordered.filter here) := by
    simpa only [List.filter_filter, Bool.and_self] using hsublist.filter here
  have hlength : (c.ordered.filter here).length = (c.invocations.filter here).length :=
    ((List.mergeSort_perm _ _).filter here).length_eq
  exact (hagain.eq_of_length hlength.symm).symm

end Content

/-- The functions of a line, whatever their offsets, are called in the order of these, those
    at one offset in the order in which they stand. The text that results is the one that
    inserting the results from the last to the first gives: each goes to its offset in the
    text of the line, or to the end if the text ends before. So the results lie between parts
    of that text, and without them it is as it was. -/
theorem Registry.run_inserts_backwards (r : Registry σ) (scene : Scene) (c : Content) (w : σ) :
    let run := r.run scene c w
    let results := r.results scene c.ordered w
    (c.ordered.Pairwise (fun i j => i.offset ≤ j.offset) ∧
      ∀ n, c.ordered.filter (·.offset == n) = c.invocations.filter (·.offset == n)) ∧
    run.text = Insertion.insertAll c.text results.1 ∧
    (∃ chunks : List Chunk, chunks.flatMap Chunk.text = run.text ∧
      chunks.flatMap Chunk.old = c.text ∧ chunks.filterMap Chunk.insertion? = results.1 ∧
      Chunk.Placed 0 c.text.length chunks) ∧
    run.called = (c.ordered.map Invocation.function).filter (fun f => r.contains f) ∧
    run.missing = (c.ordered.map Invocation.function).filter (fun f => !r.contains f) ∧
    run.world = results.2 := by
  intro run results
  obtain ⟨hcalled, hmissing⟩ := r.calls_splice scene 0 c.text c.ordered w
  obtain ⟨chunks, htext, hold, hinserted, hplaced⟩ :=
    r.exists_chunks_splice scene 0 c.text w c.pairwise_ordered
      (fun i _ => Nat.zero_le i.offset)
  rw [Nat.zero_add] at hplaced
  have hbackwards : run.text = Insertion.insertAll c.text results.1 := by
    have hinsert := Insertion.insertAll_eq_of_placed [] hplaced (by rw [hold]; rfl)
    rw [hold, hinserted, htext] at hinsert
    exact hinsert.symm
  exact ⟨⟨c.pairwise_ordered, c.filter_ordered⟩, hbackwards,
    ⟨chunks, htext, hold, hinserted, hplaced⟩, hcalled, hmissing, r.world_splice scene _ _ _ _⟩

/-- Of three markers one stands behind the end of the text, and two at one place. -/
example :
    let letter : Function Nat := .text fun _ n => ([Char.ofNat (n + 97)], n + 1)
    let r : Registry Nat := .ofList [(['L'], letter)]
    let c : Content := ⟨['H', 'i', '!'], [⟨9, ['L']⟩, ⟨2, ['L']⟩, ⟨5, ['M']⟩, ⟨2, ['L']⟩]⟩
    let run := r.run (r.scene (Session.new ∅).stage) c 0
    (run.text, run.missing) = ("Hiab!c".toList, [['M']]) := by
  cbv

end Dialogue
