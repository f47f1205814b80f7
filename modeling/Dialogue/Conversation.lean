import Dialogue.Text.Basic

/-! # Conversations

    What a script compiles to. A conversation is a sequence of lines, each with
    its speaker, its text and the functions to run while it is shown, and of
    choices, each placed behind one of the lines.
-/

namespace Dialogue

/-- A function to run at a position of a line's text. -/
structure Invocation where
  /-- How many characters of the text stand before it. -/
  offset : Nat
  function : Text
  deriving DecidableEq

/-- The text of a line and the functions it runs. -/
structure Content where
  text : Text
  invocations : List Invocation
  deriving DecidableEq

/-- A line of a conversation. A line without speaker has the empty one. -/
structure Line where
  speaker : Text
  content : Content
  image : Option Text
  deriving DecidableEq

/-- A choice: what the player reads, and the conversation it leads to. -/
structure Choice where
  label : Text
  target : Text
  deriving DecidableEq

/-- The target that is kept for choices which lead nowhere by name. -/
def reservedTarget : Text := ['>', '>']

/-- Whether the choice has the reserved target. -/
def Choice.isReserved (c : Choice) : Bool := c.target == reservedTarget

/-- A conversation. Each choice comes with the index of the line it follows. -/
structure Conversation where
  name : Text
  lines : List Line
  choices : List (Choice × Nat)
  deriving DecidableEq

namespace Conversation

/-- The choices behind a line, in the order of the script. -/
def choicesAt (c : Conversation) (line : Nat) : List Choice :=
  (c.choices.filter fun p => p.2 == line).map Prod.fst

/-- Whether a choice stands behind the line. -/
def hasChoicesAt (c : Conversation) (line : Nat) : Bool :=
  c.choices.any fun p => p.2 == line

/-- The first conversation of that name. -/
def find? (set : List Conversation) (name : Text) : Option Conversation :=
  List.find? (fun c => c.name == name) set

/-- The place of the first conversation of that name. -/
def index? (set : List Conversation) (name : Text) : Option Nat :=
  List.findIdx? (fun c => c.name == name) set

theorem mem_choicesAt {c : Conversation} {line : Nat} {choice : Choice} :
    choice ∈ c.choicesAt line ↔ (choice, line) ∈ c.choices := by
  simp [choicesAt]

theorem hasChoicesAt_iff {c : Conversation} {line : Nat} :
    c.hasChoicesAt line = true ↔ c.choicesAt line ≠ [] := by
  simp [hasChoicesAt, choicesAt]

theorem index?_eq_some {set : List Conversation} {name : Text} {i : Nat}
    (h : index? set name = some i) : ∃ c, set[i]? = some c ∧ c.name = name := by
  obtain ⟨hi, hn, -⟩ := List.findIdx?_eq_some_iff_getElem.1 h
  exact ⟨set[i], List.getElem?_eq_getElem hi, by simpa using hn⟩

theorem index?_eq_none_iff {set : List Conversation} {name : Text} :
    index? set name = none ↔ ∀ c ∈ set, c.name ≠ name := by
  simp [index?]

theorem find?_isSome_iff {set : List Conversation} {name : Text} :
    (find? set name).isSome = true ↔ ∃ c ∈ set, c.name = name := by
  simp [find?]

end Conversation

/-- A line as it is handed to the view, with the results of its functions in
    its text. -/
structure DisplayedLine where
  speaker : Text
  text : Text
  image : Option Text
  deriving DecidableEq

end Dialogue
