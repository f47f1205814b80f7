import Dialogue.Script.Error

/-! # Errors of a session

    What a session answers to a request that it cannot follow. Such a request
    leaves the stage as it was.
-/

namespace Dialogue

/-- Why a request to a session is refused. -/
inductive SessionError
  /-- There is no asset to start. -/
  | noAsset
  /-- The asset has no conversation at that place. -/
  | outOfRange (index count : Nat)
  /-- No conversations were ever started. -/
  | noActiveConversation
  /-- No conversation has that name. -/
  | notFound (name : Text)
  /-- There is nothing to choose from. -/
  | noPendingChoice
  /-- There is no choice at that place. -/
  | invalidChoice (index count : Nat)
  /-- The asset does not compile. -/
  | compile (error : CompileError)
  deriving DecidableEq

/-- The wording of a refusal. -/
def SessionError.message : SessionError → String
  | .noAsset => "no dialogue asset was given"
  | .outOfRange index count =>
    s!"conversation index {index} is out of range, expected 0..{count}"
  | .noActiveConversation =>
    "there is no ongoing conversation, therefore the jump cannot be executed"
  | .notFound name => s!"there is no conversation named \"{name.string}\""
  | .noPendingChoice => "no choice is waiting to be selected"
  | .invalidChoice index count => s!"{index} is not a valid choice, expected 0..{count}"
  | .compile error => error.message

end Dialogue
