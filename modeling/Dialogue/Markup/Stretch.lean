import Dialogue.Conversation
import Dialogue.Markup.Piece
import Dialogue.Variables.Basic

/-! # Stretches

    What a stretch of a text line contributes to the line it stands in: the
    plain text after substitution, the functions to run with their offsets into
    that text, and an image. Stretches are put one behind the other. The offsets
    of the second move behind the text of the first, and the later image wins.

    The value of a variable goes into the text as it is. It is never read as
    markup again.
-/

namespace Dialogue

/-- The contribution of a stretch of a text line. -/
structure Stretch where
  text : Text
  invocations : List Invocation
  image : Option Text
  deriving DecidableEq

namespace Invocation

/-- The invocation with `n` more characters before it. -/
def shift (n : Nat) (i : Invocation) : Invocation := { i with offset := n + i.offset }

@[simp] theorem shift_zero : shift 0 = id := by
  funext i; simp [shift]

theorem shift_comp_shift (m n : Nat) : shift m ∘ shift n = shift (m + n) := by
  funext i; simp [shift, Nat.add_assoc]

end Invocation

namespace Stretch

/-- The stretch of no characters. -/
def nil : Stretch := ⟨[], [], none⟩

/-- One stretch behind another. -/
def append (a b : Stretch) : Stretch where
  text := a.text ++ b.text
  invocations := a.invocations ++ b.invocations.map (Invocation.shift a.text.length)
  image := b.image.or a.image

instance : Append Stretch := ⟨append⟩

/-- What a segment contributes. A variable needs a value. -/
def ofSegment (globals : Variables) : Segment → Except Cause Stretch
  | .literal text => .ok ⟨text, [], none⟩
  | .reference name =>
    match globals[name]? with
    | some value => .ok ⟨value, [], none⟩
    | none => .error (.unresolvedVariable name)
  | .function name => .ok ⟨[], [⟨0, name⟩], none⟩
  | .image path => .ok ⟨[], [], some path⟩

/-- What a sequence of pieces contributes. The first piece that is refused
    decides the refusal. -/
def ofPieces (globals : Variables) : List Piece → Except Cause Stretch
  | [] => .ok nil
  | p :: ps => do
    let segment ← p.meaning
    let a ← ofSegment globals segment
    let b ← ofPieces globals ps
    return a ++ b

/-- What a text contributes. -/
def ofText (globals : Variables) (t : Text) : Except Cause Stretch :=
  ofPieces globals (Piece.ofText t)

@[simp] theorem text_append (a b : Stretch) : (a ++ b).text = a.text ++ b.text := rfl

@[simp] theorem invocations_append (a b : Stretch) :
    (a ++ b).invocations =
      a.invocations ++ b.invocations.map (Invocation.shift a.text.length) := rfl

@[simp] theorem image_append (a b : Stretch) : (a ++ b).image = b.image.or a.image := rfl

@[ext] theorem ext {a b : Stretch} (ht : a.text = b.text)
    (hi : a.invocations = b.invocations) (hm : a.image = b.image) : a = b := by
  cases a; cases b; simp_all

@[simp] theorem nil_append (a : Stretch) : nil ++ a = a := by
  ext : 1 <;> simp [nil]

@[simp] theorem append_nil (a : Stretch) : a ++ nil = a := by
  ext : 1 <;> simp [nil]

theorem append_assoc (a b c : Stretch) : a ++ b ++ c = a ++ (b ++ c) := by
  ext : 1
  · simp
  · simp [Invocation.shift_comp_shift]
  · simp [Option.or_assoc]

/-- Pieces that follow each other contribute one behind the other. -/
theorem ofPieces_append (globals : Variables) (ps qs : List Piece) :
    ofPieces globals (ps ++ qs) = (do
      let a ← ofPieces globals ps
      let b ← ofPieces globals qs
      return a ++ b) := by
  induction ps with
  | nil =>
    simp only [List.nil_append, ofPieces]
    cases ofPieces globals qs <;> simp [bind, Except.bind, pure, Except.pure]
  | cons p ps ih =>
    simp only [List.cons_append, ofPieces, ih]
    cases p.meaning with
    | error _ => rfl
    | ok s =>
      cases h : ofSegment globals s with
      | error _ => simp [bind, Except.bind, h]
      | ok a =>
        cases ofPieces globals ps with
        | error _ => simp [bind, Except.bind, h]
        | ok b =>
          cases ofPieces globals qs with
          | error _ => simp [bind, Except.bind, pure, Except.pure, h]
          | ok c => simp [bind, Except.bind, pure, Except.pure, h, append_assoc]

end Stretch

end Dialogue
