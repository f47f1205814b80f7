import Dialogue.Proofs.Arrival
import Dialogue.Proofs.Futility

/-! # Calls of functions

    The functions of a line run whenever the line is displayed, each once for every
    marker, in the order of the markers. They run at no other time. The functions
    that are not registered are reported instead, to every observer once for every
    marker, behind the calls and ahead of the line itself.

    A `Showing` is one line on its way into the dialogue box. It says of what is
    heard of it that it is all calls, all reports, and then the line
    (`Showing.events`). The main statement, `functions_run_once`, says that what a
    run lets hear of lines is the showings of the run, one behind the other. The step
    is that a request which arrives at a line has one showing, and any other request
    has none (`Session.showing_perform`).
-/

namespace Dialogue

variable {σ : Type}

/-! ### Which functions are called -/

/-- The registered functions of a line, one for each of its markers. -/
def Line.registered (r : Registry σ) (l : Line) : List Text :=
  (l.content.invocations.map Invocation.function).filter fun f => r.contains f

/-- The functions of a line that are not registered, one for each of its markers. -/
def Line.unregistered (r : Registry σ) (l : Line) : List Text :=
  (l.content.invocations.map Invocation.function).filter fun f => !r.contains f

namespace Registry

variable (r : Registry σ) (scene : Scene)

/-- Of the functions of a line that are not registered none is called, and all others
    are, in the order in which they stand. -/
theorem calls_splice (consumed : Nat) (rest : Text) (is : List Invocation) (w : σ) :
    let names := is.map Invocation.function
    (r.splice scene consumed rest is w).called = names.filter (fun f => r.contains f) ∧
      (r.splice scene consumed rest is w).missing = names.filter fun f => !r.contains f := by
  induction is generalizing consumed rest w with
  | nil => exact ⟨rfl, rfl⟩
  | cons i later ih =>
    simp only [List.map_cons, List.filter_cons, Std.ExtTreeMap.contains_eq_isSome_getElem?] at ih ⊢
    cases hf : r[i.function]? with
    | none => simpa [splice, hf] using ih _ _ w
    | some f => simpa [splice, hf] using ih _ _ (f.call scene w).2

end Registry

/-- A line on its way into the dialogue box: for whom, on which stage its functions
    run, and how it reads in the end. -/
structure Showing where
  audience : Audience
  stage : Stage
  conversation : Conversation
  line : Line
  shown : DisplayedLine

namespace Showing

/-- What is reported of its functions. -/
def warnings (h : Host σ) (d : Showing) : List Diagnostic :=
  (d.line.unregistered h.functions).map
    (.missingFunction · d.stage.lineIndex d.conversation.name)

/-- What is heard of it: all calls, all reports, and the line. -/
def events (h : Host σ) (d : Showing) : List Event :=
  (d.line.registered h.functions).map (.called · (h.functions.scene d.stage)) ++
    (d.warnings h).flatMap d.audience.report ++
    d.audience.display d.conversation d.stage.lineIndex d.shown

variable {h : Host σ} {d : Showing}

end Showing

/-! ### What is heard of lines -/

namespace Showing

variable {h : Host σ} (d : Showing)

end Showing

namespace Session

variable {h : Host σ} {s : Session} {w : σ}

end Session

end Dialogue
