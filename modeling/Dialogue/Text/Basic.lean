import Std.Data.ExtTreeMap

/-! # Text

    A text is the list of its Unicode scalar values. Every offset of the
    library counts scalar values, so an offset into a text is a position in
    this list, and no operation can cut a character in two.

    Texts are ordered by code point, character by character, with a proper
    beginning before its continuations. Finite maps from texts are kept in
    that order.
-/

namespace Dialogue

/-- A text: its Unicode scalar values in reading order. -/
abbrev Text := List Char

/-- A finite map whose keys are texts, kept in the order of its keys. Two maps
    are equal as soon as they agree on every key. -/
abbrev TextMap (α : Type) := Std.ExtTreeMap Text α

namespace Text

/-- The text as a string, for messages. -/
def string (t : Text) : String := String.ofList t

/-! ### Identifiers -/

/-- An identifier is written with ASCII letters, ASCII digits and `_`. -/
def isIdentifierChar (c : Char) : Bool := c.isAlphanum || c == '_'

/-- A non-empty run of identifier characters. -/
def isIdentifier (t : Text) : Bool := !t.isEmpty && t.all isIdentifierChar

theorem isIdentifier_iff {t : Text} :
    isIdentifier t = true ↔ t ≠ [] ∧ ∀ c ∈ t, isIdentifierChar c = true := by
  simp [isIdentifier]

theorem not_mem_of_isIdentifier {t : Text} (ht : isIdentifier t = true) {c : Char}
    (hc : isIdentifierChar c = false) : c ∉ t := by
  intro hmem
  have hchar := (isIdentifier_iff.1 ht).2 c hmem
  rw [hc] at hchar
  cases hchar

end Text

end Dialogue
