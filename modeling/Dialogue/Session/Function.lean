import Dialogue.Session.Stage

/-! # Functions

    The markers of a script run functions that a host registers under a name. A
    function sees the scene it is called in and may change the world outside of
    the session, whatever that is to the host; it cannot change the session.
    Some functions produce a text, which goes into the line, and the others are
    run for their effect alone.
-/

namespace Dialogue

/-- What a function is run for. -/
inductive FunctionKind
  | textProducing
  | effectOnly
  deriving DecidableEq

/-- What a function sees when it is called: the stage, and which functions are
    registered. -/
structure Scene where
  stage : Stage
  functions : TextMap FunctionKind

/-- A function over a world of type `σ`. -/
inductive Function (σ : Type)
  | text (run : Scene → σ → Text × σ)
  | effect (run : Scene → σ → σ)

/-- Functions by name. -/
abbrev Registry (σ : Type) := TextMap (Function σ)

variable {σ : Type}

/-- What the function is run for. -/
def Function.kind : Function σ → FunctionKind
  | .text _ => .textProducing
  | .effect _ => .effectOnly

/-- Runs the function: the text that it produces, if it does, and the world
    after it. -/
def Function.call : Function σ → Scene → σ → Option Text × σ
  | .text run, scene, w => let r := run scene w; (some r.1, r.2)
  | .effect run, scene, w => (none, run scene w)

/-- The scene on a stage. -/
def Registry.scene (r : Registry σ) (stage : Stage) : Scene :=
  ⟨stage, r.map fun _ f => f.kind⟩

/-! ### Splicing -/

/-- What running the functions of a line comes to: the text of the line with the
    results in it, the names that were called, the names that are not
    registered, and the world after all calls. -/
structure Spliced (σ : Type) where
  text : Text
  called : List Text
  missing : List Text
  world : σ

/-- Runs the functions of a line from left to right. `rest` is the part of the
    text behind the first `consumed` characters. Each function first lets the
    text up to its offset pass, as far as there is any, and then puts its result
    there. -/
def Registry.splice (r : Registry σ) (scene : Scene) (consumed : Nat) (rest : Text) :
    List Invocation → σ → Spliced σ
  | [], w => ⟨rest, [], [], w⟩
  | i :: later, w =>
    let passed := rest.take (i.offset - consumed)
    let ahead := rest.drop (i.offset - consumed)
    match r[i.function]? with
    | none =>
      let s := r.splice scene (consumed + passed.length) ahead later w
      { s with text := passed ++ s.text, missing := i.function :: s.missing }
    | some f =>
      let result := f.call scene w
      let s := r.splice scene (consumed + passed.length) ahead later result.2
      { s with text := passed ++ result.1.getD [] ++ s.text, called := i.function :: s.called }

/-- The invocations in the order of their offsets. Those at one offset keep
    their order. -/
def Content.ordered (c : Content) : List Invocation :=
  c.invocations.mergeSort fun i j => i.offset ≤ j.offset

/-- Runs the functions of a line in the order of their offsets. -/
def Registry.run (r : Registry σ) (scene : Scene) (c : Content) (w : σ) : Spliced σ :=
  r.splice scene 0 c.text c.ordered w

end Dialogue
