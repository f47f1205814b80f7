import Dialogue.Proofs.Alike
import Dialogue.Proofs.Blocks

/-! # Values cannot change the structure of a script

    A script is compiled under two sets of variables that define the same of the
    names it refers to. Then it is refused under both, for the same reason on the
    same line, or it compiles under both to conversations of one shape. Only the
    texts of the lines differ, and with them the places of the functions.

    Under variables that also have the same values for those names it compiles to
    the same. Names that the script does not refer to are never looked up.

    The reason is that a value goes into the text of a line and is never read
    again. The piece that it stands for is refused or not before its value is
    known, and adds neither a function nor an image.
-/

namespace Dialogue

/-! ### Shapes -/

/-- Stretches that differ in their texts and in the places of their functions
    only. -/
structure Stretch.SameShape (a a' : Stretch) : Prop where
  functions : a.invocations.map Invocation.function = a'.invocations.map Invocation.function
  image : a.image = a'.image

/-- Lines that differ in their texts and in the places of their functions only. -/
structure Line.SameShape (l l' : Line) : Prop where
  speaker : l.speaker = l'.speaker
  functions : l.content.invocations.map Invocation.function =
    l'.content.invocations.map Invocation.function
  image : l.image = l'.image

namespace Stretch

theorem SameShape.append {a a' b b' : Stretch} (ha : a.SameShape a') (hb : b.SameShape b') :
    (a ++ b).SameShape (a' ++ b') where
  functions := by
    -- A function keeps its name wherever it moves.
    have hname : ∀ n, Invocation.function ∘ Invocation.shift n = Invocation.function :=
      fun _ => rfl
    simp only [invocations_append, List.map_append, List.map_map, hname, ha.functions,
      hb.functions]
  image := by rw [image_append, image_append, ha.image, hb.image]

theorem SameShape.toLine {a a' : Stretch} (h : a.SameShape a') (speaker : Text) :
    (a.toLine speaker).SameShape (a'.toLine speaker) :=
  ⟨rfl, h.functions, h.image⟩

/-! ### Two sets of variables -/

variable {g g' : Variables}

/-- A segment is refused under both sets of variables or has one shape under both,
    if both define the variable that it refers to or none does. -/
theorem alike_ofSegment {s : Segment}
    (h : ∀ name, s = .reference name → (name ∈ g ↔ name ∈ g')) :
    Except.Alike Eq SameShape (ofSegment g s) (ofSegment g' s) := by
  cases s with
  | literal t => exact .ok ⟨rfl, rfl⟩
  | function f => exact .ok ⟨rfl, rfl⟩
  | image path => exact .ok ⟨rfl, rfl⟩
  | reference name =>
    have hsome : g[name]?.isSome = g'[name]?.isSome := by
      rw [Bool.eq_iff_iff, Std.ExtTreeMap.isSome_getElem?_iff_mem,
        Std.ExtTreeMap.isSome_getElem?_iff_mem]
      exact h name rfl
    rw [ofSegment, ofSegment]
    cases hv : g[name]? with
    | none =>
      cases hv' : g'[name]? with
      | none => exact .error rfl
      | some value' => rw [hv, hv'] at hsome; cases hsome
    | some value =>
      cases hv' : g'[name]? with
      | none => rw [hv, hv'] at hsome; cases hsome
      | some value' => exact .ok ⟨rfl, rfl⟩

/-- Only the value of the variable that it refers to matters to a segment. -/
theorem ofSegment_congr {s : Segment} (h : ∀ name, s = .reference name → g[name]? = g'[name]?) :
    ofSegment g s = ofSegment g' s := by
  cases s with
  | reference name => rw [ofSegment, ofSegment, h name rfl]
  | _ => rfl

/-- Pieces go the way that their segments go, for any relation that can be put
    together from parts. -/
theorem alike_ofPieces {R : Stretch → Stretch → Prop} (hnil : R nil nil)
    (happend : ∀ a a' b b', R a a' → R b b' → R (a ++ b) (a' ++ b')) {ps : List Piece}
    (h : ∀ p ∈ ps, ∀ s, p.meaning = .ok s →
      Except.Alike Eq R (ofSegment g s) (ofSegment g' s)) :
    Except.Alike Eq R (ofPieces g ps) (ofPieces g' ps) := by
  induction ps with
  | nil => exact .ok hnil
  | cons p ps ih =>
    rw [ofPieces, ofPieces]
    cases hp : p.meaning with
    | error cause => exact .error rfl
    | ok s =>
      refine (h p List.mem_cons_self s hp).bind ?_
      intro a a' ha
      refine (ih fun q hq => h q (List.mem_cons_of_mem p hq)).bind ?_
      intro b b' hb
      exact .ok (happend a a' b b' ha hb)

end Stretch

/-! ### References -/

/-- The name that a segment refers to. -/
def Segment.reference? : Segment → Option Text
  | .reference name => some name
  | _ => none

/-- The names that a text refers to. -/
def Text.references (raw : Text) : List Text :=
  (Piece.ofText raw).filterMap fun p => p.meaning.toOption.bind Segment.reference?

/-- The names that the texts of a script refer to. -/
def Item.references (items : List Item) : List Text :=
  ((tokens items).filterMap Token.text?).flatMap Text.references

theorem Text.mem_references {raw name : Text} {p : Piece} (hp : p ∈ Piece.ofText raw)
    (h : p.meaning = .ok (.reference name)) : name ∈ raw.references := by
  refine List.mem_filterMap.2 ⟨p, hp, ?_⟩
  rw [h]
  rfl

theorem Item.mem_references {items : List Item} {raw name : Text} (hraw : .text raw ∈ tokens items)
    (h : name ∈ raw.references) : name ∈ references items :=
  List.mem_flatMap.2 ⟨raw, List.mem_filterMap.2 ⟨.text raw, hraw, rfl⟩, h⟩

/-! ### Texts -/

namespace Text

variable {g g' : Variables} {raw : Text}

theorem compilesAlike_sameShape (h : ∀ name ∈ raw.references, (name ∈ g ↔ name ∈ g')) :
    raw.CompilesAlike Line.SameShape g g' := by
  intro speaker
  rw [Line.compile_eq_map, Line.compile_eq_map]
  have hpieces : Except.Alike Eq Stretch.SameShape (Stretch.ofText g raw)
      (Stretch.ofText g' raw) := by
    refine Stretch.alike_ofPieces ⟨rfl, rfl⟩ (fun _ _ _ _ => Stretch.SameShape.append) ?_
    intro p hp s hs
    refine Stretch.alike_ofSegment ?_
    intro name hname
    exact h name (mem_references hp (hname ▸ hs))
  exact hpieces.map fun a a' ha => ha.toLine speaker

theorem compilesAlike_eq (h : ∀ name ∈ raw.references, g[name]? = g'[name]?) :
    raw.CompilesAlike Eq g g' := by
  intro speaker
  rw [Line.compile_eq_map, Line.compile_eq_map]
  have hpieces : Except.Alike Eq Eq (Stretch.ofText g raw) (Stretch.ofText g' raw) := by
    refine Stretch.alike_ofPieces rfl (fun _ _ _ _ ha hb => ha ▸ hb ▸ rfl) ?_
    intro p hp s hs
    rw [Stretch.ofSegment_congr fun name hname => h name (mem_references hp (hname ▸ hs))]
    cases Stretch.ofSegment g' s with
    | error cause => exact .error rfl
    | ok a => exact .ok rfl
  exact hpieces.map fun a a' ha => congrArg (Stretch.toLine · speaker) ha

end Text

/-! ### Scripts -/

/-- A script goes one way under both sets of variables, if its texts do. -/
theorem alike_compileItems_self {R : Line → Line → Prop} {g g' : Variables} {items : List Item}
    (h : ∀ raw, .text raw ∈ Item.tokens items → raw.CompilesAlike R g g') :
    Except.Alike Eq (List.Forall₂ (Conversation.Alike R)) (compileItems g items)
      (compileItems g' items) := by
  have hitems : List.Forall₂ (fun i i' => i.Alike Eq i' ∧
      ∀ raw, i.token = .ok (.text raw) → raw.CompilesAlike R g g') items items := by
    rw [List.forall₂_same]
    intro i hi
    refine ⟨⟨rfl, rfl⟩, ?_⟩
    intro raw hraw
    refine h raw (List.mem_filterMap.2 ⟨i, hi, ?_⟩)
    rw [hraw]
    rfl
  refine (alike_compileItems hitems).imp ?_ fun _ _ hcs => hcs
  intro e e' he
  obtain ⟨line, cause⟩ := e
  obtain ⟨line', cause'⟩ := e'
  obtain ⟨rfl, rfl⟩ := he
  rfl

/-- Under two sets of variables that define the same of the names it refers to, a
    script is refused with the same refusal, or compiles to conversations that
    differ in the texts of their lines and in the places of the functions only.
    If they also have the same values for those names, the outcome is the same. -/
theorem compile_sameShape {g g' : Variables} {source : Text}
    (hdefined : ∀ name ∈ Item.references (Item.ofSource source), (name ∈ g ↔ name ∈ g')) :
    Except.Alike Eq (List.Forall₂ (Conversation.Alike Line.SameShape)) (compile g source)
      (compile g' source) ∧
    ((∀ name ∈ Item.references (Item.ofSource source), g[name]? = g'[name]?) →
      compile g source = compile g' source) := by
  constructor
  · refine alike_compileItems_self ?_
    intro raw hraw
    exact Text.compilesAlike_sameShape fun name hname =>
      hdefined name (Item.mem_references hraw hname)
  · intro hvalues
    have hsame : Except.Alike Eq (List.Forall₂ (Conversation.Alike Eq)) (compile g source)
        (compile g' source) := by
      refine alike_compileItems_self ?_
      intro raw hraw
      exact Text.compilesAlike_eq fun name hname =>
        hvalues name (Item.mem_references hraw hname)
    refine (hsame.imp (fun _ _ he => he) ?_).eq
    intro cs cs' hcs
    have heq : List.Forall₂ Eq cs cs' := hcs.imp fun _ _ hc => hc.eq
    rwa [List.forall₂_eq_eq_eq] at heq

/-! A letter whose variables hold what would be a header, a speaker, a choice, a
    marker and another variable. -/

/-- The script. -/
def letterSource : Text := String.toList
  "\x7b\x7bConversationName(Letter)\x7d\x7d
[Courier]
Dear $Name,\x7b\x7bSeal\x7d\x7d$Body\x7b\x7bSeal\x7d\x7d
- Read on -> Letter"

/-- Values that look like a script. -/
def forgedVariables : Variables := .ofPairs
  [("Name".toList, String.toList "\n\x7b\x7bConversationName(Letter)\x7d\x7d\n[Thief]\n- Go -> >>"),
    ("Body".toList, String.toList "$Name\x7b\x7bBell\x7d\x7d\x7b\x7b")]

/-- Values for the same names. -/
def plainVariables : Variables := .ofPairs [("Name".toList, "Ann".toList), ("Body".toList, [])]

/-- A value for one more name. -/
def spareVariables : Variables := plainVariables.insert "Seal".toList "$Name".toList

/-- The letter has one shape whatever it says, and ignores the name that it does
    not refer to. -/
theorem sameShape_letter :
    Except.Alike Eq (List.Forall₂ (Conversation.Alike Line.SameShape))
      (compile forgedVariables letterSource) (compile plainVariables letterSource) ∧
    compile plainVariables letterSource = compile spareVariables letterSource := by
  have hforged : ∀ name ∈ Item.references (Item.ofSource letterSource),
      (name ∈ forgedVariables ↔ name ∈ plainVariables) := by decide +kernel
  have hspare : ∀ name ∈ Item.references (Item.ofSource letterSource),
      (name ∈ plainVariables ↔ name ∈ spareVariables) := by decide +kernel
  have hvalues : ∀ name ∈ Item.references (Item.ofSource letterSource),
      plainVariables[name]? = spareVariables[name]? := by decide +kernel
  exact ⟨(compile_sameShape hforged).1, (compile_sameShape hspare).2 hvalues⟩

end Dialogue
