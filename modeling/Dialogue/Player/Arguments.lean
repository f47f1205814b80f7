import Dialogue.Player.Failure

/-! # Arguments of the player

    The player is called with the path of a script, the place of the
    conversation to start with, and behind a flag the path of a table of
    variables. What comes twice counts the last time, but for the script.
-/

namespace Dialogue.Player

/-- What the player is asked to do. -/
structure Arguments where
  script : Text
  index : Nat
  table : Option Text
  deriving DecidableEq

/-- The flag in front of a table of variables. -/
def variablesFlag : Text := ['-', '-', 'v', 'a', 'r', 's']

namespace Arguments

/-- Reads on behind arguments that gave these values. -/
def readFrom (script : Option Text) (index : Nat) (table : Option Text) :
    List Text → Except Failure Arguments
  | [] =>
    match script with
    | none => .error .usage
    | some script => .ok ⟨script, index, table⟩
  | a :: rest =>
    if a = variablesFlag then
      match rest with
      | [] => .error .usage
      | path :: rest => readFrom script index (some path) rest
    else
      match script with
      | none => readFrom (some a) index table rest
      | some script =>
        match Text.readIndex a with
        | .error e => .error (.index e)
        | .ok n => readFrom (some script) n table rest

/-- Reads the arguments, from the left. -/
def read (arguments : List Text) : Except Failure Arguments := readFrom none 0 none arguments

end Arguments

end Dialogue.Player
