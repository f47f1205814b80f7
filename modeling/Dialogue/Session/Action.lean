import Dialogue.Session.Basic

/-! # Runs of a session

    Every request to a session as one type, and what a sequence of requests
    comes to: the answers one by one, and all events in their order.
-/

namespace Dialogue

/-- A request to a session. -/
inductive Action
  | start (asset : Option Asset) (index : Nat)
  | interact (interaction : Interaction) (index : Nat)
  | stop
  | jump (name : Text)
  | advance
  | finishLine
  | select (index : Nat)
  | changeVariables (change : Variables → Variables)
  | setView (view : Option Text)
  | addPlugin
  | addObserver

/-- What a request answers. -/
inductive Answer
  | done
  | refused (error : SessionError)
  | advanced (moved : Bool)
  | selected (selection : Selection)
  deriving DecidableEq

/-- The answer of a request that is followed or refused. -/
def Answer.ofExcept {α : Type} (f : α → Answer) : Except SessionError α → Answer
  | .ok a => f a
  | .error e => .refused e

variable {σ : Type}

/-- The turn with its answer read in another way. -/
def Turn.map {α β : Type} (f : α → β) (t : Turn σ α) : Turn σ β :=
  ⟨f t.answer, t.session, t.world, t.events⟩

namespace Session

/-- Follows a request. -/
def perform (h : Host σ) (s : Session) (w : σ) : Action → Turn σ Answer
  | .start asset index => (s.start h w asset index).map (.ofExcept fun _ => .done)
  | .interact i index => (s.interact h w i index).map (.ofExcept fun _ => .done)
  | .stop => (s.stop w).map fun _ => .done
  | .jump name => (s.jump h w name).map (.ofExcept fun _ => .done)
  | .advance => (s.advance h w).map .advanced
  | .finishLine => (s.finishLine w).map fun _ => .done
  | .select index => (s.select h w index).map (.ofExcept .selected)
  | .changeVariables change => (s.changeVariables change).rest w .done
  | .setView view => (s.setView view).rest w .done
  | .addPlugin => s.addPlugin.rest w .done
  | .addObserver => s.addObserver.rest w .done

/-- Follows requests one after the other. The answers come in their order. -/
def run (h : Host σ) (s : Session) (w : σ) : List Action → Turn σ (List Answer)
  | [] => s.rest w []
  | a :: rest =>
    let t := s.perform h w a
    let u := t.session.run h t.world rest
    ⟨t.answer :: u.answer, u.session, u.world, t.events ++ u.events⟩

end Session

end Dialogue
