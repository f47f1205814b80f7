import Mathlib.Data.List.Induction
import Dialogue.Proofs.Moves

/-! # The ledger of a cache

    A cache is asked for assets under their variables, and told to drop entries. The
    ledger has all that was done about that, in its order, with the answers
    (`Cache.Deed`). From the ledger alone one can tell what the cache will answer next
    (`Cache.fetch_exact`): always what the compiler would, and the very set of the last
    answer for that name if nothing has changed since. That answer has not been dropped,
    and it was for the same source under variables with the same values. Otherwise the
    set is a new one, which was never given out before.

    What connects the two is that each entry is the last answer for its name, unless it
    was dropped since (`Cache.Reflects`). A fetch that finds its entry leaves it, and one
    that compiles replaces it, so that both make their own answer the last one.
-/

namespace Dialogue.Cache

/-! ### Deeds -/

/-- A request to a cache. -/
inductive Request
  | fetch (asset : Asset) (globals : Variables)
  | invalidate (name : Text)
  | clear

/-- What a cache did about a request. -/
inductive Deed
  /-- It answered for an asset under these variables. -/
  | fetched (asset : Asset) (globals : Variables) (result : Except CompileError CompiledSet)
  /-- It dropped the entry of that name. -/
  | invalidated (name : Text)
  /-- It dropped all entries. -/
  | cleared

namespace Deed

/-- The set that was given out. -/
def set? : Deed → Option CompiledSet
  | fetched _ _ (.ok set) => some set
  | _ => none

/-- Whether a set was given out for an asset of that name. -/
def gives (name : Text) : Deed → Bool
  | fetched asset _ (.ok _) => asset.name == name
  | _ => false

/-- Whether an entry of that name was dropped, if there was one. -/
def drops (name : Text) : Deed → Bool
  | fetched .. => false
  | invalidated n => n == name
  | cleared => true

theorem gives_eq_true_iff {name : Text} {d : Deed} :
    d.gives name = true ↔ ∃ source globals set, d = fetched ⟨name, source⟩ globals (.ok set) := by
  constructor
  · intro h
    match d, h with
    | fetched asset globals (.ok set), h =>
      refine ⟨asset.source, globals, set, ?_⟩
      rw [← beq_iff_eq.1 h]
  · rintro ⟨source, globals, set, rfl⟩
    exact beq_self_eq_true name

end Deed

/-- Follows a request. -/
def follow (c : Cache) : Request → Deed × Cache
  | .fetch asset globals =>
    let f := c.fetch asset globals
    (.fetched asset globals f.result, f.cache)
  | .invalidate name => (.invalidated name, c.invalidate name)
  | .clear => (.cleared, c.clear)

/-- Follows requests one after the other: the ledger of them, and the cache behind
    them. -/
def serve (c : Cache) : List Request → List Deed × Cache
  | [] => ([], c)
  | r :: rest =>
    let behind := (c.follow r).2.serve rest
    ((c.follow r).1 :: behind.1, behind.2)

/-! ### Since when -/

/-- A deed with `P` was done, and since then only deeds with `Q`. -/
def Since (ledger : List Deed) (P Q : Deed → Prop) : Prop :=
  ∃ before d after, ledger = before ++ d :: after ∧ P d ∧ ∀ e ∈ after, Q e

variable {ledger : List Deed} {P Q : Deed → Prop}

theorem not_since_nil : ¬ Since [] P Q := by
  rintro ⟨before, d, after, h, -⟩
  exact List.append_ne_nil_of_right_ne_nil before (List.cons_ne_nil d after) h.symm

/-- One more deed has `P` itself, or leaves it at what was since before. -/
theorem since_concat_iff {d : Deed} :
    Since (ledger ++ [d]) P Q ↔ P d ∨ Q d ∧ Since ledger P Q := by
  constructor
  · rintro ⟨before, first, after, hledger, hfirst, hafter⟩
    rcases List.eq_nil_or_concat after with rfl | ⟨later, last, rfl⟩
    · obtain ⟨-, hd⟩ := List.append_inj' hledger rfl
      cases hd
      exact .inl hfirst
    · rw [List.concat_eq_append, ← List.cons_append, ← List.append_assoc] at hledger
      obtain ⟨hbefore, hd⟩ := List.append_inj' hledger rfl
      cases hd
      have hlast : Q d := hafter d (by simp)
      exact .inr ⟨hlast, before, first, later, hbefore, hfirst, fun e he => hafter e (by simp [he])⟩
  · rintro (hd | ⟨hd, before, first, after, rfl, hfirst, hafter⟩)
    · exact ⟨ledger, d, [], rfl, hd, List.forall_mem_nil _⟩
    · refine ⟨before, first, after ++ [d], by simp, hfirst, ?_⟩
      intro e he
      rcases List.mem_append.1 he with he | he
      · exact hafter e he
      · rw [List.mem_singleton.1 he]
        exact hd

/-- Of the deeds with `P` one is the last. -/
theorem Since.last (h : Since ledger P Q) : Since ledger P fun d => Q d ∧ ¬ P d := by
  induction ledger using List.reverseRecOn with
  | nil => exact absurd h not_since_nil
  | append_singleton ledger d ih =>
    rw [since_concat_iff] at h ⊢
    by_cases hd : P d
    · exact .inl hd
    · rcases h with h | ⟨hQ, h⟩
      · exact absurd h hd
      · exact .inr ⟨⟨hQ, hd⟩, ih h⟩

/-- Behind a last deed with `P` none is found. -/
theorem eq_of_cons_eq_append {between after after' : List Deed} {d d' : Deed}
    (h : d :: after = between ++ d' :: after') (hd' : P d') (hafter : ∀ e ∈ after, ¬ P e) :
    d = d' ∧ after = after' := by
  cases between with
  | nil => exact List.cons.inj h
  | cons e between =>
    have hmem : d' ∈ after := by
      rw [(List.cons.inj h).2]
      exact List.mem_append_right between List.mem_cons_self
    exact absurd hd' (hafter d' hmem)

/-- There is only one last deed with `P`. -/
theorem eq_of_last {before after before' after' : List Deed} {d d' : Deed}
    (h : before ++ d :: after = before' ++ d' :: after') (hd : P d) (hd' : P d')
    (hafter : ∀ e ∈ after, ¬ P e) (hafter' : ∀ e ∈ after', ¬ P e) : d = d' ∧ after = after' := by
  -- One of them does not stand behind the other, whichever part is the longer one.
  rcases List.append_eq_append_iff.1 h with ⟨between, -, hlate⟩ | ⟨between, -, hlate⟩
  · exact eq_of_cons_eq_append hlate hd' hafter
  · obtain ⟨heq, hsame⟩ := eq_of_cons_eq_append hlate hd hafter'
    exact ⟨heq.symm, hsame.symm⟩

/-! ### What a fetch comes to -/

section

variable {c : Cache} {asset : Asset} {globals : Variables}

theorem lookup?_eq_some_iff {set : CompiledSet} :
    c.lookup? asset globals = some set ↔
      c.entries[asset.name]? = some ⟨asset.source, globals, set⟩ := by
  unfold lookup?
  cases c.entries[asset.name]? with
  | none => simp
  | some e =>
    obtain ⟨source, g, kept⟩ := e
    by_cases hsame : source = asset.source ∧ g = globals
    · simp [hsame]
    · simp only [if_neg hsame, Option.some.injEq, CacheEntry.mk.injEq, reduceCtorEq, false_iff]
      exact fun h => hsame ⟨h.1, h.2.1⟩

/-- A fetch finds a set, or it compiles and is refused, or it compiles and keeps what
    it compiled. -/
theorem fetch_cases (c : Cache) (asset : Asset) (globals : Variables) :
    (∃ set, c.lookup? asset globals = some set ∧
      c.fetch asset globals = ⟨.ok set, c, [.reused asset.name]⟩) ∨
    (∃ e, c.lookup? asset globals = none ∧ c.fetch asset globals = ⟨.error e, c, []⟩) ∨
    ∃ set, c.lookup? asset globals = none ∧ c.fetch asset globals =
      ⟨.ok ⟨c.compilations, set⟩, c.store asset globals set,
        [.compiled set.length asset.name]⟩ := by
  unfold fetch
  cases c.lookup? asset globals with
  | some set => exact .inl ⟨set, rfl, rfl⟩
  | none =>
    cases compile globals asset.source with
    | error e => exact .inr (.inl ⟨e, rfl, rfl⟩)
    | ok set => exact .inr (.inr ⟨set, rfl, rfl⟩)

theorem cache_fetch_of_error {e : CompileError}
    (h : (c.fetch asset globals).result = .error e) : (c.fetch asset globals).cache = c := by
  rcases c.fetch_cases asset globals with ⟨set, -, hf⟩ | ⟨e, -, hf⟩ | ⟨set, -, hf⟩
  · rw [hf]
  · rw [hf]
  · rw [hf] at h
    cases h

/-- Behind a successful fetch its answer is kept, found or compiled. -/
theorem entries_fetch_of_ok {set : CompiledSet} (h : (c.fetch asset globals).result = .ok set)
    (name : Text) : (c.fetch asset globals).cache.entries[name]? =
      if asset.name = name then some ⟨asset.source, globals, set⟩ else c.entries[name]? := by
  rcases c.fetch_cases asset globals with ⟨found, hlookup, hf⟩ | ⟨e, -, hf⟩ | ⟨compiled, -, hf⟩
  · rw [hf] at h ⊢
    cases h
    split
    · next hname =>
      rw [← hname]
      exact lookup?_eq_some_iff.1 hlookup
    · rfl
  · rw [hf] at h
    cases h
  · rw [hf] at h ⊢
    cases h
    simp only [store, Std.ExtTreeMap.getElem?_insert, Std.LawfulEqCmp.compare_eq_iff_eq]

end

/-! ### Entries and last answers -/

/-- Entries are the last answers for their names, unless they were dropped since. The
    number of the next compilation is one that no set in the ledger has. -/
structure Reflects (c : Cache) (ledger : List Deed) : Prop where
  entry : ∀ (name : Text) (e : CacheEntry), c.entries[name]? = some e ↔
    Since ledger (· = .fetched ⟨name, e.source⟩ e.globals (.ok e.set))
      fun d => d.gives name = false ∧ d.drops name = false
  serial : ∀ d ∈ ledger, ∀ set ∈ d.set?, set.serial < c.compilations
  sound : c.Sound

theorem reflects_empty : empty.Reflects [] where
  entry := by
    intro name e
    simp [empty, not_since_nil]
  serial := by simp
  sound := sound_empty

/-- A deed that gave nothing for the name, but may have dropped its entry. -/
theorem Reflects.entry_concat {c : Cache} (hc : c.Reflects ledger) {d : Deed} {name : Text}
    (hd : d.gives name = false) (e : CacheEntry) :
    Since (ledger ++ [d]) (· = .fetched ⟨name, e.source⟩ e.globals (.ok e.set))
        (fun d => d.gives name = false ∧ d.drops name = false) ↔
      d.drops name = false ∧ c.entries[name]? = some e := by
  rw [since_concat_iff, hc.entry]
  constructor
  · rintro (rfl | ⟨⟨-, hdrops⟩, h⟩)
    · simp [Deed.gives] at hd
    · exact ⟨hdrops, h⟩
  · rintro ⟨hdrops, h⟩
    exact .inr ⟨⟨hd, hdrops⟩, h⟩

theorem Reflects.serial_concat {c c' : Cache} (hc : c.Reflects ledger) {d : Deed}
    (hmore : c.compilations ≤ c'.compilations)
    (hd : ∀ set ∈ d.set?, set.serial < c'.compilations) :
    ∀ e ∈ ledger ++ [d], ∀ set ∈ e.set?, set.serial < c'.compilations := by
  intro e he set hset
  rcases List.mem_append.1 he with he | he
  · exact Nat.lt_of_lt_of_le (hc.serial e he set hset) hmore
  · rw [List.mem_singleton.1 he] at hset
    exact hd set hset

/-- The set of an entry is one of the ledger. -/
theorem Reflects.serial_lt {c : Cache} (hc : c.Reflects ledger) {name : Text} {e : CacheEntry}
    (he : c.entries[name]? = some e) : e.set.serial < c.compilations := by
  obtain ⟨before, d, after, rfl, rfl, -⟩ := (hc.entry name e).1 he
  exact hc.serial _ (List.mem_append_right before List.mem_cons_self) e.set rfl

/-- What a fetch gives out was given before, or has the number of a new compilation. -/
theorem Reflects.serial_fetch_lt {c : Cache} (hc : c.Reflects ledger) (asset : Asset)
    (globals : Variables) : c.compilations ≤ (c.fetch asset globals).cache.compilations ∧
      ∀ set, (c.fetch asset globals).result = .ok set →
        set.serial < (c.fetch asset globals).cache.compilations := by
  rcases c.fetch_cases asset globals with ⟨found, hlookup, hf⟩ | ⟨e, -, hf⟩ | ⟨compiled, -, hf⟩
  · rw [hf]
    refine ⟨Nat.le_refl _, ?_⟩
    intro set hset
    cases hset
    exact hc.serial_lt (lookup?_eq_some_iff.1 hlookup)
  · rw [hf]
    refine ⟨Nat.le_refl _, ?_⟩
    intro set hset
    cases hset
  · rw [hf]
    refine ⟨Nat.le_succ _, ?_⟩
    intro set hset
    cases hset
    exact Nat.lt_succ_self _

/-- A fetch makes its answer the last one for the name. -/
theorem Reflects.fetch {c : Cache} (hc : c.Reflects ledger) (asset : Asset)
    (globals : Variables) :
    (c.fetch asset globals).cache.Reflects
      (ledger ++ [.fetched asset globals (c.fetch asset globals).result]) := by
  have hsound := (hc.sound.fetch asset globals).1
  obtain ⟨hmore, hnumber⟩ := hc.serial_fetch_lt asset globals
  cases hresult : (c.fetch asset globals).result with
  | error e =>
    refine ⟨?_, hc.serial_concat hmore (by simp [Deed.set?]), hsound⟩
    intro name e'
    rw [hc.entry_concat rfl, cache_fetch_of_error hresult]
    simp [Deed.drops]
  | ok set =>
    refine ⟨?_, hc.serial_concat hmore ?_, hsound⟩
    · intro name e
      rw [entries_fetch_of_ok hresult]
      split
      · next hname =>
        have hgives : (Deed.fetched asset globals (.ok set)).gives name = true :=
          beq_iff_eq.2 hname
        rw [since_concat_iff, hgives, ← hname]
        constructor
        · intro he
          cases he
          exact .inl rfl
        · rintro (heq | ⟨⟨habsurd, -⟩, -⟩)
          · obtain ⟨hasset, hglobals, hset⟩ := Deed.fetched.inj heq
            rw [hasset, hglobals, Except.ok.inj hset]
          · cases habsurd
      · next hname =>
        have hgives : (Deed.fetched asset globals (.ok set)).gives name = false :=
          beq_eq_false_iff_ne.2 hname
        rw [hc.entry_concat hgives]
        simp [Deed.drops]
    · intro set' hset'
      cases hset'
      exact hnumber set hresult

theorem Reflects.invalidate {c : Cache} (hc : c.Reflects ledger) (name : Text) :
    (c.invalidate name).Reflects (ledger ++ [.invalidated name]) where
  entry := by
    intro n e
    rw [hc.entry_concat rfl]
    simp only [Cache.invalidate, Std.ExtTreeMap.getElem?_erase,
      Std.LawfulEqCmp.compare_eq_iff_eq, Deed.drops, beq_eq_false_iff_ne]
    split
    · next hname => simp [hname]
    · next hname => simp [hname]
  serial := hc.serial_concat (Nat.le_refl _) (by simp [Deed.set?])
  sound := by
    intro n e he
    simp only [Cache.invalidate, Std.ExtTreeMap.getElem?_erase] at he
    split at he
    · cases he
    · exact hc.sound n e he

theorem Reflects.clear {c : Cache} (hc : c.Reflects ledger) :
    c.clear.Reflects (ledger ++ [.cleared]) where
  entry := by
    intro n e
    rw [hc.entry_concat rfl]
    simp [Cache.clear, Deed.drops]
  serial := hc.serial_concat (Nat.le_refl _) (by simp [Deed.set?])
  sound := by
    intro n e he
    simp [Cache.clear] at he

/-- Every request keeps the ledger and the cache together. -/
theorem Reflects.follow {c : Cache} (hc : c.Reflects ledger) (r : Request) :
    (c.follow r).2.Reflects (ledger ++ [(c.follow r).1]) := by
  cases r with
  | fetch asset globals => exact hc.fetch asset globals
  | invalidate name => exact hc.invalidate name
  | clear => exact hc.clear

theorem Reflects.serve {c : Cache} (hc : c.Reflects ledger) (requests : List Request) :
    (c.serve requests).2.Reflects (ledger ++ (c.serve requests).1) := by
  induction requests generalizing c ledger with
  | nil =>
    rw [Cache.serve, List.append_nil]
    exact hc
  | cons r rest ih =>
    have hlater := ih (hc.follow r)
    rw [List.append_assoc] at hlater
    exact hlater

/-! ### Names -/

/-- A set was given out for the name, and nothing of that name was dropped since. -/
def Stands (ledger : List Deed) (name : Text) : Prop :=
  Since ledger (fun d => d.gives name = true) fun d => d.drops name = false

theorem Reflects.mem_entries_iff {c : Cache} (hc : c.Reflects ledger) {name : Text} :
    name ∈ c.entries ↔ Stands ledger name := by
  rw [Std.ExtTreeMap.mem_iff_isSome_getElem?, Option.isSome_iff_exists]
  constructor
  · rintro ⟨e, he⟩
    obtain ⟨before, d, after, hledger, rfl, hafter⟩ := (hc.entry name e).1 he
    exact ⟨before, _, after, hledger, beq_self_eq_true name, fun d hd => (hafter d hd).2⟩
  · intro hstands
    -- Of all that was given for the name, the last is what the entry holds.
    obtain ⟨before, d, after, hledger, hd, hafter⟩ := hstands.last
    obtain ⟨source, globals, set, rfl⟩ := Deed.gives_eq_true_iff.1 hd
    refine ⟨⟨source, globals, set⟩, (hc.entry name _).2 ⟨before, _, after, hledger, rfl, ?_⟩⟩
    intro e he
    exact ⟨Bool.eq_false_iff.2 (hafter e he).2, (hafter e he).1⟩

/-- There are as many entries as names that stand. -/
theorem Reflects.exists_names {c : Cache} (hc : c.Reflects ledger) :
    ∃ names : List Text, names.Nodup ∧ (∀ name, name ∈ names ↔ Stands ledger name) ∧
      names.length = c.size := by
  refine ⟨c.entries.keys, ?_, ?_, Std.ExtTreeMap.length_keys⟩
  · refine Std.ExtTreeMap.distinct_keys.imp ?_
    intro a b hab heq
    exact hab (Std.LawfulEqCmp.compare_eq_iff_eq.2 heq)
  · intro name
    rw [Std.ExtTreeMap.mem_keys, hc.mem_entries_iff]

/-! ### What the ledger tells -/

/-- Nothing has changed since that answer for a script of this name: it was not dropped,
    the source is the same, and so are the variables, name by name. -/
structure Unchanged (asset : Asset) (globals : Variables) (source : Text) (earlier : Variables)
    (after : List Deed) : Prop where
  standing : ∀ d ∈ after, d.drops asset.name = false
  source : source = asset.source
  globals : ∀ x : Text, earlier[x]? = globals[x]?

/-- What the ledger tells of the next fetch. -/
structure IsExact (ledger : List Deed) (c : Cache) (asset : Asset) (globals : Variables) :
    Prop where
  /-- The answer is what the compiler gives. -/
  result : (c.fetch asset globals).result.map CompiledSet.conversations =
    compile globals asset.source
  /-- The set of the last successful answer for the name is given again if and only if
      nothing has changed since, and then nothing is compiled. -/
  last : ∀ before source earlier set after,
    ledger = before ++ .fetched ⟨asset.name, source⟩ earlier (.ok set) :: after →
    (∀ d ∈ after, d.gives asset.name = false) →
    ((c.fetch asset globals).result = .ok set ↔
      Unchanged asset globals source earlier after) ∧
    (c.fetch asset globals = ⟨.ok set, c, [.reused asset.name]⟩ ↔
      Unchanged asset globals source earlier after)
  /-- Without a successful answer for the name before, nothing is used again. -/
  first : (∀ d ∈ ledger, d.gives asset.name = false) →
    (c.fetch asset globals).notices ≠ [.reused asset.name]
  /-- What is not used again is compiled, and it is a set that was never given out. -/
  anew : ∀ set, (c.fetch asset globals).result = .ok set →
    (c.fetch asset globals).notices ≠ [.reused asset.name] →
    (c.fetch asset globals).notices = [.compiled set.conversations.length asset.name] ∧
      ∀ d ∈ ledger, d.set? ≠ some set
  /-- A refusal leaves the cache as it was. -/
  refused : ∀ e, (c.fetch asset globals).result = .error e → (c.fetch asset globals).cache = c

variable {c : Cache} {asset : Asset} {globals : Variables}

/-- A set that is found is the last answer, and nothing has changed since. -/
theorem Reflects.unchanged_of_lookup? (hc : c.Reflects ledger) {set : CompiledSet}
    (hlookup : c.lookup? asset globals = some set) {before after : List Deed} {source : Text}
    {earlier : Variables} {answer : CompiledSet}
    (hledger : ledger = before ++ .fetched ⟨asset.name, source⟩ earlier (.ok answer) :: after)
    (hafter : ∀ d ∈ after, d.gives asset.name = false) :
    Unchanged asset globals source earlier after := by
  obtain ⟨before', d, after', hledger', rfl, hafter'⟩ :=
    (hc.entry asset.name _).1 (lookup?_eq_some_iff.1 hlookup)
  obtain ⟨hdeed, hsame⟩ := eq_of_last (P := fun d => d.gives asset.name = true)
    (hledger.symm.trans hledger') (beq_self_eq_true _) (beq_self_eq_true _)
    (fun d hd => Bool.eq_false_iff.1 (hafter d hd))
    (fun d hd => Bool.eq_false_iff.1 (hafter' d hd).1)
  obtain ⟨hasset, hglobals, -⟩ := Deed.fetched.inj hdeed
  refine ⟨?_, (Asset.mk.inj hasset).2, fun x => by rw [hglobals]⟩
  intro d hd
  rw [hsame] at hd
  exact (hafter' d hd).2

/-- The last answer is found where nothing has changed since. -/
theorem Reflects.lookup?_of_unchanged (hc : c.Reflects ledger) {before after : List Deed}
    {source : Text} {earlier : Variables} {set : CompiledSet}
    (hledger : ledger = before ++ .fetched ⟨asset.name, source⟩ earlier (.ok set) :: after)
    (hafter : ∀ d ∈ after, d.gives asset.name = false)
    (h : Unchanged asset globals source earlier after) : c.lookup? asset globals = some set := by
  have hglobals : earlier = globals := Std.ExtTreeMap.ext_getElem? h.globals
  rw [lookup?_eq_some_iff, hc.entry, ← h.source, ← hglobals]
  exact ⟨before, _, after, hledger, rfl, fun d hd => ⟨hafter d hd, h.standing d hd⟩⟩

theorem Reflects.isExact (hc : c.Reflects ledger) (asset : Asset) (globals : Variables) :
    IsExact ledger c asset globals where
  result := (hc.sound.fetch asset globals).2
  last := by
    intro before source earlier set after hledger hafter
    have hold : set.serial < c.compilations := by
      refine hc.serial (.fetched ⟨asset.name, source⟩ earlier (.ok set)) ?_ set rfl
      rw [hledger]
      exact List.mem_append_right before List.mem_cons_self
    have hback : Unchanged asset globals source earlier after →
        c.fetch asset globals = ⟨.ok set, c, [.reused asset.name]⟩ := by
      intro h
      have hlookup := hc.lookup?_of_unchanged hledger hafter h
      rw [Cache.fetch, hlookup]
    have hforth : (c.fetch asset globals).result = .ok set →
        Unchanged asset globals source earlier after := by
      intro hset
      rcases c.fetch_cases asset globals with ⟨found, hlookup, hf⟩ | ⟨e, -, hf⟩ | ⟨new, -, hf⟩
      · exact hc.unchanged_of_lookup? hlookup hledger hafter
      · rw [hf] at hset
        cases hset
      · -- A new compilation has a number that no set in the ledger has.
        rw [hf] at hset
        cases hset
        exact absurd hold (Nat.lt_irrefl _)
    exact ⟨⟨hforth, fun h => by rw [hback h]⟩, ⟨fun h => hforth (by rw [h]), hback⟩⟩
  first := by
    intro hnone hreused
    rcases c.fetch_cases asset globals with ⟨found, hlookup, hf⟩ | ⟨e, -, hf⟩ | ⟨new, -, hf⟩
    · obtain ⟨before, d, after, hledger, rfl, -⟩ :=
        (hc.entry asset.name _).1 (lookup?_eq_some_iff.1 hlookup)
      have hmem := hnone (.fetched asset globals (.ok found)) (by rw [hledger]; simp)
      simp [Deed.gives] at hmem
    · rw [hf] at hreused
      cases hreused
    · rw [hf] at hreused
      cases hreused
  anew := by
    intro set hset hanew
    rcases c.fetch_cases asset globals with ⟨found, hlookup, hf⟩ | ⟨e, -, hf⟩ | ⟨new, -, hf⟩
    · rw [hf] at hanew
      exact absurd rfl hanew
    · rw [hf] at hset
      cases hset
    · rw [hf] at hset ⊢
      cases hset
      refine ⟨rfl, ?_⟩
      intro d hd hgiven
      exact absurd (hc.serial d hd _ hgiven) (Nat.lt_irrefl _)
  refused := fun e he => cache_fetch_of_error he

/-- From the ledger of a cache one can tell what it answers next, whatever it was asked
    for and told to drop before. The answer is what the compiler gives; it is the very
    set of the last successful answer for the name if and only if that has not been
    dropped, was for the same source, and under variables with the same values; and a
    refusal leaves the cache as it was. The size of the cache is the number of names for
    which a set was given out and not dropped since. -/
theorem fetch_exact (past : List Request) (asset : Asset) (globals : Variables) :
    let ledger := (empty.serve past).1
    let c := (empty.serve past).2
    IsExact ledger c asset globals ∧
      ∃ names : List Text, names.Nodup ∧ (∀ name, name ∈ names ↔ Stands ledger name) ∧
        names.length = c.size := by
  intro ledger c
  have hc : c.Reflects ledger := reflects_empty.serve past
  exact ⟨hc.isExact asset globals, hc.exists_names⟩

/-- Neither a refused source nor a name without an entry takes the second set away. The
    variables of the first one come back too late. -/
example :
    let source := "\x7b\x7bConversationName(A)\x7d\x7d\n$X".toList
    let under (value : Text) : Request := .fetch ⟨['A'], source⟩ (.ofPairs [(['X'], value)])
    let ledger := (empty.serve [under ['1'], under ['2'], .fetch ⟨['A'], ['-']⟩ ∅,
      .invalidate ['B'], under ['2'], under ['1'], .clear, under ['1']]).1
    ledger.map (fun d => d.set?.map CompiledSet.serial) =
      [some 0, some 1, none, none, some 1, some 2, none, some 3] := by
  decide +kernel

end Dialogue.Cache
