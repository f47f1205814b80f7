import Mathlib.Data.List.Forall2
import Dialogue.Proofs.TextLine

/-! # Blocks of a script

    What a script has to look like, said of its tokens as a whole, and what it
    stands for. A header and the tokens up to the next header form a block, and
    every block stands for one conversation:

    - the texts of the block are its lines, each spoken by the speaker that was
      named last in the block, if any was;
    - the choices of the block stand behind the text above them, and there has
      to be one.

    None of this follows the compiler, which reads the tokens one by one and
    never looks back.
-/

namespace Dialogue

/-! ### Lists that correspond -/

section Forall₂

variable {α β : Type} {R : α → β → Prop}

/-- If everything in a list has a counterpart, the list has one. -/
theorem exists_forall₂ {as : List α} (h : ∀ a ∈ as, ∃ b, R a b) : ∃ bs, List.Forall₂ R as bs := by
  induction as with
  | nil => exact ⟨[], .nil⟩
  | cons a as ih =>
    obtain ⟨b, hb⟩ := h a List.mem_cons_self
    obtain ⟨bs, hbs⟩ := ih fun a' ha => h a' (List.mem_cons_of_mem _ ha)
    exact ⟨b :: bs, .cons hb hbs⟩

/-- Counterparts stand at the same place. -/
theorem exists_getElem?_of_forall₂ {as : List α} {bs : List β} (h : List.Forall₂ R as bs) {i : Nat}
    {b : β} (hb : bs[i]? = some b) : ∃ a, as[i]? = some a ∧ R a b := by
  induction h generalizing i with
  | nil => simp at hb
  | cons hab _ ih =>
    cases i with
    | zero =>
      rw [List.getElem?_cons_zero, Option.some.injEq] at hb
      exact ⟨_, rfl, hb ▸ hab⟩
    | succ i => exact ih (by simpa using hb)

/-- What counterparts have in common, their lists have in common. -/
theorem map_eq_map_of_forall₂ {γ : Type} {f : α → γ} {g : β → γ} {as : List α} {bs : List β}
    (h : List.Forall₂ R as bs) (hR : ∀ a b, R a b → f a = g b) : as.map f = bs.map g := by
  induction h with
  | nil => rfl
  | cons hab _ ih => rw [List.map_cons, List.map_cons, hR _ _ hab, ih]

theorem exists_mem_of_forall₂ {as : List α} {bs : List β} (h : List.Forall₂ R as bs) {b : β}
    (hb : b ∈ bs) : ∃ a ∈ as, R a b := by
  obtain ⟨i, hi⟩ := List.mem_iff_getElem?.1 hb
  obtain ⟨a, ha, hab⟩ := exists_getElem?_of_forall₂ h hi
  exact ⟨a, List.mem_of_getElem? ha, hab⟩

end Forall₂

/-! ### Tokens and what stands before them -/

namespace Token

/-- The name in a header. -/
def header? : Token → Option Text
  | .header name => some name
  | _ => none

/-- The name in a speaker tag. -/
def speaker? : Token → Option Text
  | .speaker name => some name
  | _ => none

/-- The text to be shown. -/
def text? : Token → Option Text
  | .text raw => some raw
  | _ => none

/-- The choice on offer. -/
def choice? : Token → Option Choice
  | .choice label target => some ⟨label, target⟩
  | _ => none

/-- Each token together with all tokens before it. -/
def inContext (before : List Token) : List Token → List (List Token × Token)
  | [] => []
  | t :: rest => (before, t) :: inContext (before ++ [t]) rest

/-- Who speaks behind these tokens: the speaker named last, or else the empty
    one. -/
def speakerAfter (before : List Token) : Text := ((before.filterMap speaker?).getLast?).getD []

theorem text?_eq_some_iff {t : Token} {raw : Text} : t.text? = some raw ↔ t = .text raw := by
  cases t <;> simp [text?]

theorem choice?_eq_some_iff {t : Token} {c : Choice} :
    t.choice? = some c ↔ t = .choice c.label c.target := by
  cases t with
  | choice label target => cases c; simp [choice?]
  | _ => simp [choice?]

theorem inContext_concat (before ts : List Token) (t : Token) :
    inContext before (ts ++ [t]) = inContext before ts ++ [(before ++ ts, t)] := by
  induction ts generalizing before with
  | nil => simp [inContext]
  | cons u ts ih => simp [inContext, ih]

/-- The context of a token is what stands before it. -/
theorem exists_of_mem_inContext {before ts : List Token} {p : List Token × Token}
    (h : p ∈ inContext before ts) :
    ∃ mid after, ts = mid ++ p.2 :: after ∧ p.1 = before ++ mid := by
  induction ts generalizing before with
  | nil => cases h
  | cons t ts ih =>
    rcases List.mem_cons.1 h with rfl | h
    · exact ⟨[], ts, rfl, (List.append_nil _).symm⟩
    · obtain ⟨mid, after, rfl, hp⟩ := ih h
      exact ⟨t :: mid, after, rfl, by simpa using hp⟩

theorem mem_of_mem_inContext {before ts : List Token} {p : List Token × Token}
    (h : p ∈ inContext before ts) : p.2 ∈ ts := by
  obtain ⟨mid, after, rfl, -⟩ := exists_of_mem_inContext h
  simp

/-- Contexts grow. -/
theorem pairwise_inContext (before ts : List Token) :
    (inContext before ts).Pairwise fun p q => p.1 <+: q.1 := by
  induction ts generalizing before with
  | nil => exact .nil
  | cons t ts ih =>
    refine .cons ?_ (ih _)
    intro q hq
    obtain ⟨mid, -, -, hcontext⟩ := exists_of_mem_inContext hq
    rw [hcontext, List.append_assoc]
    exact List.prefix_append _ _

/-- Nobody speaks, or one that was named. -/
theorem speakerAfter_eq_nil_or_mem (before : List Token) :
    speakerAfter before = [] ∨ .speaker (speakerAfter before) ∈ before := by
  unfold speakerAfter
  cases hlast : (before.filterMap speaker?).getLast? with
  | none => exact .inl rfl
  | some name =>
    right
    obtain ⟨t, ht, hname⟩ := List.mem_filterMap.1 (List.mem_of_getLast? hlast)
    cases t <;> cases hname
    exact ht

end Token

/-! ### Blocks -/

/-- A header and what is said below it. -/
structure Block where
  name : Text
  body : List Token
  deriving DecidableEq

namespace Block

/-- The blocks of a script: below each header, the tokens up to the next one. -/
def ofTokens : List Token → List Block
  | [] => []
  | .header name :: rest =>
    ⟨name, rest.takeWhile fun t => t.header?.isNone⟩ :: ofTokens rest
  | _ :: rest => ofTokens rest

/-- The texts of a block, each with its speaker. -/
def sayings (b : Block) : List (Text × Text) :=
  (Token.inContext [] b.body).filterMap fun p =>
    p.2.text?.map fun raw => (Token.speakerAfter p.1, raw)

/-- The choices of a block. Each follows the last one of the texts before it. -/
def offers (b : Block) : List (Choice × Nat) :=
  (Token.inContext [] b.body).filterMap fun p =>
    p.2.choice?.map fun c => (c, (p.1.filterMap Token.text?).length - 1)

/-- Every choice of the block has a text somewhere above it. -/
def ChoicesFollow (b : Block) : Prop :=
  ∀ before label target after, b.body = before ++ .choice label target :: after →
    ∃ raw, .text raw ∈ before

/-- The texts of the block are readable. -/
def TextsReadable (globals : Variables) (b : Block) : Prop :=
  ∀ raw, .text raw ∈ b.body → raw.IsReadable globals

/-- The conversation that a block stands for. -/
structure Yields (globals : Variables) (b : Block) (c : Conversation) : Prop where
  name : c.name = b.name
  lines : List.Forall₂ (fun saying l =>
    l.speaker = saying.1 ∧ Line.compile globals saying.1 saying.2 = .ok l) b.sayings c.lines
  choices : c.choices = b.offers

/-- A block that is as it should be. -/
structure WellFormed (globals : Variables) (b : Block) : Prop where
  told : ∃ raw, .text raw ∈ b.body
  follow : b.ChoicesFollow
  readable : b.TextsReadable globals

/-- A block that is as it should be, and the conversation that it stands for. -/
structure Compiles (globals : Variables) (b : Block) (c : Conversation) : Prop
    extends WellFormed globals b where
  yields : b.Yields globals c

end Block

/-! ### Acceptable scripts -/

namespace Item

/-- The tokens of the lines that say one. -/
def tokens (items : List Item) : List Token := items.filterMap fun i => i.token.toOption

/-- What a script has to be like. -/
structure Acceptable (globals : Variables) (items : List Item) : Prop where
  /-- Every line says something. -/
  said : ∀ i ∈ items, ∃ t, i.token = .ok t
  /-- A script that says anything begins with a header. -/
  headed : ∀ t, (tokens items).head? = some t → ∃ name, t = .header name
  /-- No two headers have one name. -/
  distinct : ((tokens items).filterMap Token.header?).Nodup
  /-- Every block has a text. -/
  told : ∀ b ∈ Block.ofTokens (tokens items), ∃ raw, .text raw ∈ b.body
  /-- No choice stands above the first text of its block. -/
  follow : ∀ b ∈ Block.ofTokens (tokens items), b.ChoicesFollow
  /-- Every text is well marked and only refers to variables that have values. -/
  readable : ∀ raw, .text raw ∈ tokens items → raw.IsReadable globals

theorem tokens_cons {i : Item} {t : Token} (h : i.token = .ok t) (items : List Item) :
    tokens (i :: items) = t :: tokens items := by
  rw [tokens, List.filterMap_cons, h]
  rfl

theorem mem_tokens_iff {items : List Item} {t : Token} :
    t ∈ tokens items ↔ ∃ i ∈ items, i.token = .ok t := by
  rw [tokens, List.mem_filterMap]
  refine exists_congr fun i => and_congr_right fun _ => ?_
  cases i.token <;> simp [Except.toOption]

theorem tokens_of_map {items : List Item} {ts : List Token}
    (h : items.map Item.token = ts.map .ok) : tokens items = ts := by
  induction items generalizing ts with
  | nil => cases ts with
    | nil => rfl
    | cons t ts => simp at h
  | cons i items ih => cases ts with
    | nil => simp at h
    | cons t ts =>
      simp only [List.map_cons, List.cons.injEq] at h
      rw [tokens_cons h.1, ih h.2]

theorem map_token_of_said {items : List Item} (h : ∀ i ∈ items, ∃ t, i.token = .ok t) :
    items.map Item.token = (tokens items).map .ok := by
  induction items with
  | nil => rfl
  | cons i items ih =>
    obtain ⟨t, ht⟩ := h i List.mem_cons_self
    rw [tokens_cons ht, List.map_cons, List.map_cons, ht,
      ih fun j hj => h j (List.mem_cons_of_mem _ hj)]

end Item

/-! ### Taking a script apart into blocks -/

namespace Block

/-- Tokens without a header. -/
def IsPlain (body : List Token) : Prop := ∀ t ∈ body, t.header? = none

theorem ofTokens_append {body : List Token} (h : IsPlain body) (ts : List Token) :
    ofTokens (body ++ ts) = ofTokens ts := by
  induction body with
  | nil => rfl
  | cons t body ih =>
    have ht : t.header? = none := h t List.mem_cons_self
    have hbody : IsPlain body := fun u hu => h u (List.mem_cons_of_mem _ hu)
    cases t with
    | header name => cases ht
    | speaker name => exact ih hbody
    | choice label target => exact ih hbody
    | text raw => exact ih hbody

/-- The first block takes in all that stands before the next header. -/
theorem ofTokens_header {body : List Token} (h : IsPlain body) (name : Text) (ts : List Token) :
    ofTokens (.header name :: (body ++ ts)) =
      ⟨name, body ++ ts.takeWhile fun t => t.header?.isNone⟩ :: ofTokens ts := by
  rw [ofTokens, ofTokens_append h, List.takeWhile_append_of_pos]
  intro t ht
  rw [h t ht]
  rfl

theorem map_name_ofTokens (ts : List Token) :
    (ofTokens ts).map name = ts.filterMap Token.header? := by
  induction ts with
  | nil => rfl
  | cons t ts ih =>
    -- Only a header opens a block, and only a header has a name.
    cases t <;> simp [ofTokens, Token.header?, List.filterMap_cons, ih]

/-- What a block holds stands in the script. -/
theorem mem_of_mem_ofTokens {ts : List Token} {b : Block} (h : b ∈ ofTokens ts) :
    .header b.name ∈ ts ∧ ∀ t ∈ b.body, t ∈ ts := by
  induction ts with
  | nil => cases h
  | cons u ts ih =>
    have hlater : b ∈ ofTokens ts → .header b.name ∈ u :: ts ∧ ∀ t ∈ b.body, t ∈ u :: ts := by
      intro hb
      obtain ⟨hheader, hbody⟩ := ih hb
      exact ⟨List.mem_cons_of_mem _ hheader, fun t ht => List.mem_cons_of_mem _ (hbody t ht)⟩
    cases u with
    | header name =>
      rcases List.mem_cons.1 h with rfl | h
      · refine ⟨List.mem_cons_self, ?_⟩
        intro t ht
        exact List.mem_cons_of_mem _ (List.takeWhile_sublist _ |>.mem ht)
      · exact hlater h
    | speaker name => exact hlater h
    | choice label target => exact hlater h
    | text raw => exact hlater h

/-- A script that begins with a header is its blocks put together. -/
theorem flatMap_ofTokens {ts : List Token}
    (h : ∀ t, ts.head? = some t → ∃ name, t = .header name) :
    (ofTokens ts).flatMap (fun b => .header b.name :: b.body) = ts := by
  -- A token that is no header goes to the block in front of it, so the induction
  -- needs what stands before the first header beside the blocks.
  have hall : ∀ us : List Token, us.takeWhile (fun t => t.header?.isNone) ++
      (ofTokens us).flatMap (fun b => .header b.name :: b.body) = us := by
    intro us
    induction us with
    | nil => rfl
    | cons u us ih =>
      cases u with
      | header name => simpa [ofTokens, Token.header?] using ih
      | speaker name => simpa [ofTokens, Token.header?] using ih
      | choice label target => simpa [ofTokens, Token.header?] using ih
      | text raw => simpa [ofTokens, Token.header?] using ih
  cases ts with
  | nil => rfl
  | cons t ts =>
    obtain ⟨name, rfl⟩ := h t rfl
    simpa [Token.header?] using hall (.header name :: ts)

/-! ### Blocks that grow -/

/-- The block with one more token. -/
def extend (b : Block) (t : Token) : Block := ⟨b.name, b.body ++ [t]⟩

theorem sayings_extend (b : Block) (t : Token) :
    (b.extend t).sayings =
      b.sayings ++ (t.text?.map fun raw => (Token.speakerAfter b.body, raw)).toList := by
  rw [sayings, extend, Token.inContext_concat, List.filterMap_append]
  cases t <;> simp [sayings, Token.text?]

/-- There is a line for each text. -/
theorem length_sayings (b : Block) :
    b.sayings.length = (b.body.filterMap Token.text?).length := by
  -- The context of a token does not decide whether it is a text.
  have hall : ∀ before ts : List Token,
      ((Token.inContext before ts).filterMap fun p =>
        p.2.text?.map fun raw => (Token.speakerAfter p.1, raw)).length =
      (ts.filterMap Token.text?).length := by
    intro before ts
    induction ts generalizing before with
    | nil => rfl
    | cons u ts ih =>
      cases u with
      | text raw => exact congrArg Nat.succ (ih _)
      | header name => exact ih _
      | speaker name => exact ih _
      | choice label target => exact ih _
  exact hall [] b.body

theorem sayings_ne_nil_iff (b : Block) : b.sayings ≠ [] ↔ ∃ raw, .text raw ∈ b.body := by
  have hmem : ∀ raw, raw ∈ b.body.filterMap Token.text? ↔ .text raw ∈ b.body := by
    intro raw
    simp [List.mem_filterMap, Token.text?_eq_some_iff]
  rw [← List.length_pos_iff, length_sayings, List.length_pos_iff_exists_mem]
  exact exists_congr hmem

theorem text_mem_of_mem_sayings {b : Block} {saying : Text × Text} (h : saying ∈ b.sayings) :
    .text saying.2 ∈ b.body := by
  obtain ⟨p, hp, hs⟩ := List.mem_filterMap.1 h
  obtain ⟨raw, hraw, rfl⟩ := Option.map_eq_some_iff.1 hs
  rw [← Token.text?_eq_some_iff.1 hraw]
  exact Token.mem_of_mem_inContext hp

/-- A text of the block has no speaker, or one that the block names. -/
theorem speaker_of_mem_sayings {b : Block} {saying : Text × Text} (h : saying ∈ b.sayings) :
    saying.1 = [] ∨ .speaker saying.1 ∈ b.body := by
  obtain ⟨p, hp, hs⟩ := List.mem_filterMap.1 h
  obtain ⟨raw, -, rfl⟩ := Option.map_eq_some_iff.1 hs
  obtain ⟨mid, after, hbody, hcontext⟩ := Token.exists_of_mem_inContext hp
  rw [List.nil_append] at hcontext
  refine (Token.speakerAfter_eq_nil_or_mem p.1).imp_right ?_
  intro hmem
  rw [hbody, ← hcontext]
  exact List.mem_append_left _ hmem

/-- A choice of the block stands in it, behind one of its texts if there is any. -/
theorem choice_mem_of_mem_offers {b : Block} {offer : Choice × Nat} (h : offer ∈ b.offers) :
    .choice offer.1.label offer.1.target ∈ b.body ∧ offer.2 ≤ b.sayings.length - 1 := by
  obtain ⟨p, hp, ho⟩ := List.mem_filterMap.1 h
  obtain ⟨c, hc, rfl⟩ := Option.map_eq_some_iff.1 ho
  obtain ⟨mid, after, hbody, hcontext⟩ := Token.exists_of_mem_inContext hp
  rw [List.nil_append] at hcontext
  constructor
  · rw [← Token.choice?_eq_some_iff.1 hc]
    exact Token.mem_of_mem_inContext hp
  · have hle : (p.1.filterMap Token.text?).length ≤ (b.body.filterMap Token.text?).length := by
      rw [hbody, hcontext, List.filterMap_append, List.length_append]
      exact Nat.le_add_right _ _
    rw [length_sayings]
    exact Nat.sub_le_sub_right hle 1

/-- The choices of a block stand in the order of the texts that they follow. -/
theorem pairwise_offers (b : Block) : b.offers.Pairwise fun o o' => o.2 ≤ o'.2 := by
  refine (Token.pairwise_inContext [] b.body).filterMap _ ?_
  intro p q hbegin o ho o' ho'
  obtain ⟨c, -, rfl⟩ := Option.map_eq_some_iff.1 ho
  obtain ⟨c', -, rfl⟩ := Option.map_eq_some_iff.1 ho'
  exact Nat.sub_le_sub_right (hbegin.filterMap Token.text?).length_le 1

theorem offers_extend (b : Block) (t : Token) :
    (b.extend t).offers =
      b.offers ++ (t.choice?.map fun c => (c, b.sayings.length - 1)).toList := by
  rw [offers, extend, Token.inContext_concat, List.filterMap_append]
  cases t <;> simp [offers, Token.choice?, length_sayings]

theorem speakerAfter_extend (b : Block) (t : Token) :
    Token.speakerAfter (b.extend t).body = t.speaker?.getD (Token.speakerAfter b.body) := by
  cases t <;> simp [extend, Token.speakerAfter, Token.speaker?, List.filterMap_append]

end Block

end Dialogue
