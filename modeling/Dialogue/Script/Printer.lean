import Dialogue.Script.Source

/-! # Writing tokens

    The line that says a token, and the source that says a sequence of them, one
    on each line. A token is well-formed when a line can say it: its words are
    trimmed and fit on one line, and nothing in them would end them early or
    make the line say something else.
-/

namespace Dialogue

/-- A text that stands on one line without blanks around it. -/
def Text.IsInline (t : Text) : Prop := t.IsTrimmed ∧ '\n' ∉ t

instance (t : Text) : Decidable t.IsInline := inferInstanceAs (Decidable (_ ∧ _))

namespace Token

/-- The line that says a token. -/
def print : Token → Text
  | .header name => markerOpen ++ headerTag ++ '(' :: name ++ ')' :: markerClose
  | .speaker name => '[' :: name ++ [']']
  | .choice label target => '-' :: ' ' :: label ++ ' ' :: arrow ++ ' ' :: target
  | .text t => t

/-- The source that says the tokens, each on a line of its own. -/
def printAll (tokens : List Token) : Text := Text.unlines (tokens.map print)

/-! ### Lines that are no texts -/

/-- The line begins a marker with the header word. -/
def BeginsHeader (t : Text) : Prop :=
  ∃ blanks rest : Text, t = markerOpen ++ blanks ++ headerTag ++ rest ∧
    (∀ c ∈ blanks, Text.isBlank c = true) ∧ ∀ c ∈ rest.head?, Text.isIdentifierChar c = false

/-- The line stands between brackets. -/
def IsBracketed (t : Text) : Prop := ∃ inner : Text, t = '[' :: inner ++ [']']

/-- The line begins with a dash that stands for itself. -/
def IsDashed (t : Text) : Prop :=
  t = ['-'] ∨ ∃ rest : Text, t = '-' :: ' ' :: rest ∨ t = '-' :: '\t' :: rest

/-- Whether a line can say the token. -/
def WellFormed : Token → Prop
  | .header name => name ≠ [] ∧ name.IsInline ∧ '(' ∉ name ∧ ')' ∉ name
  | .speaker name => name.IsInline
  | .choice label target =>
    label ≠ [] ∧ label.IsInline ∧ target ≠ [] ∧ target.IsInline ∧ ¬ arrow <:+: target
  | .text t =>
    t ≠ [] ∧ t.IsInline ∧ t.head? ≠ some '#' ∧ ¬ BeginsHeader t ∧ ¬ IsBracketed t ∧ ¬ IsDashed t

end Token

end Dialogue
