import Dialogue.Proofs.Calls

/-! # What functions see

    The functions of a line run in the middle of a request, when some fields of the
    stage belong to the line that is entered and others were emptied. What they see
    does not depend on how the session came there. The conversations, the place and the
    line are those of the line that is about to be displayed, also where a start has
    just replaced the conversations by others. The session counts as busy, no choice is
    pending, and the dialogue box is empty (`Scene.IsAhead`). Nothing is left of the
    line before.
-/

namespace Dialogue

variable {σ : Type}

end Dialogue
