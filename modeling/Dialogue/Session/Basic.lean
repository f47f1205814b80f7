import Dialogue.Cache
import Dialogue.Session.Display
import Dialogue.Session.Error

/-! # Sessions

    A session plays one conversation at a time, line by line. It starts the
    conversations of an asset, advances through lines, follows choices and
    jumps, and tells its audience of all it does. Each request answers, and
    leaves a new session, a new world and the events in their order.

    The variables in force when an asset is started are the ones its lines are
    compiled with. Later changes show when an asset is started again.
-/

namespace Dialogue

/-- A session: what it shows, who listens, and what it has compiled. -/
structure Session where
  stage : Stage
  audience : Audience
  cache : Cache

/-- What a request comes to. -/
structure Turn (σ α : Type) where
  answer : α
  session : Session
  world : σ
  events : List Event

/-- What selecting a choice leads to. -/
inductive Selection
  /-- The conversation of that name, at its first line. -/
  | entered (conversation : Text)
  /-- Nowhere: the target is reserved. -/
  | reserved
  /-- Nowhere: no conversation has the name of the target. -/
  | unresolved
  deriving DecidableEq

/-- Assets that are offered together, to be started by their place. -/
structure Interaction where
  dialogues : List Asset
  deriving DecidableEq

namespace Session

variable {σ : Type}

/-- A session with these variables, before its first conversation and with
    nobody listening. -/
def new (globals : Variables) : Session := ⟨.idle globals, .nobody, .empty⟩

/-- What the session is doing. -/
def phase (s : Session) : Phase := s.stage.phase

/-! ### Listeners and variables -/

/-- Replaces the view. -/
def setView (s : Session) (view : Option Text) : Session :=
  { s with audience := { s.audience with view } }

/-- Attaches one more plugin. -/
def addPlugin (s : Session) : Session :=
  { s with audience := { s.audience with plugins := s.audience.plugins + 1 } }

/-- Attaches one more observer. -/
def addObserver (s : Session) : Session :=
  { s with audience := { s.audience with observers := s.audience.observers + 1 } }

/-- Changes the variables. -/
def changeVariables (s : Session) (change : Variables → Variables) : Session :=
  { s with stage := { s.stage with globals := change s.stage.globals } }

/-! ### Playing -/

/-- Stops the active conversation and starts one of the set at its first line.
    The stop still goes by the conversations before. -/
def enter (h : Host σ) (s : Session) (w : σ) (set : List Conversation) (index : Nat) :
    Outcome σ :=
  let entered := s.stage.enter set index
  let shown := entered.display h s.audience w
  { shown with
    events := s.audience.stop s.stage ++ s.audience.announce entered ++ shown.events }

/-- A turn that went as an outcome says. -/
def follow {α : Type} (s : Session) (answer : α) (before : List Event) (o : Outcome σ) :
    Turn σ α :=
  ⟨answer, { s with stage := o.stage }, o.world, before ++ o.events⟩

/-- A turn that changes nothing but the answer. -/
def rest {α : Type} (s : Session) (w : σ) (answer : α) : Turn σ α := ⟨answer, s, w, []⟩

/-- Compiles an asset and starts its conversation at a place. Where that fails,
    the stage stays as it was. -/
def start (h : Host σ) (s : Session) (w : σ) (asset : Option Asset) (index : Nat) :
    Turn σ (Except SessionError Unit) :=
  match asset with
  | none => s.rest w (.error .noAsset)
  | some asset =>
    let f := s.cache.fetch asset s.stage.globals
    let s := { s with cache := f.cache }
    let notices := f.notices.map Event.logged
    match f.result with
    | .error e => ⟨.error (.compile e), s, w, notices⟩
    | .ok set =>
      if index < set.conversations.length then
        s.follow (.ok ()) notices (s.enter h w set.conversations index)
      else ⟨.error (.outOfRange index set.conversations.length), s, w, notices⟩

/-- Starts the first conversation of one of the assets on offer. -/
def interact (h : Host σ) (s : Session) (w : σ) (i : Interaction) (index : Nat) :
    Turn σ (Except SessionError Unit) :=
  s.start h w i.dialogues[index]? 0

/-- Stops the active conversation, if there is one, and clears the box. -/
def stop (s : Session) (w : σ) : Turn σ Unit :=
  ⟨(), { s with stage := s.stage.stop }, w, s.audience.stop s.stage⟩

/-- Starts the conversation of that name in the present set. -/
def jump (h : Host σ) (s : Session) (w : σ) (name : Text) : Turn σ (Except SessionError Unit) :=
  if s.stage.conversations.isEmpty then s.rest w (.error .noActiveConversation)
  else
    match Conversation.index? s.stage.conversations name with
    | none => s.rest w (.error (.notFound name))
    | some index => s.follow (.ok ()) [] (s.enter h w s.stage.conversations index)

/-- Goes on to the next line, or stops behind the last one. A line that is still
    being brought out, choices to select from, and the lack of a conversation
    keep the session where it is. Answers whether it went on. -/
def advance (h : Host σ) (s : Session) (w : σ) : Turn σ Bool :=
  if s.stage.busy || !s.stage.pending.isEmpty then s.rest w false
  else
    match s.stage.conversation? with
    | none => ⟨false, s, w, s.stage.faults⟩
    | some c =>
      let cleared := s.stage.clear
      let before := s.audience.clear s.stage
      if cleared.lineIndex + 1 < c.lines.length then
        let next := { cleared with lineIndex := cleared.lineIndex + 1 }
        s.follow true before (next.display h s.audience w)
      else s.follow true before ⟨cleared.stop, w, s.audience.stop cleared⟩

/-- Takes note that the view has brought out the line. -/
def finishLine (s : Session) (w : σ) : Turn σ Unit :=
  ⟨(), { s with stage := { s.stage with busy := false } }, w, []⟩

/-- Follows one of the pending choices. A choice that leads nowhere is reported
    and stays pending with the others. -/
def select (h : Host σ) (s : Session) (w : σ) (index : Nat) :
    Turn σ (Except SessionError Selection) :=
  if s.stage.pending.isEmpty then s.rest w (.error .noPendingChoice)
  else
    match s.stage.pending[index]? with
    | none => s.rest w (.error (.invalidChoice index s.stage.pending.length))
    | some choice =>
      if choice.isReserved then
        ⟨.ok .reserved, s, w, s.audience.report .reservedChoice⟩
      else
        match Conversation.index? s.stage.conversations choice.target with
        | some target =>
          s.follow (.ok (.entered choice.target)) [.logged (.selected choice.label)]
            (s.enter h w s.stage.conversations target)
        | none =>
          let current := (s.stage.conversation?.map Conversation.name).getD []
          ⟨.ok .unresolved, s, w, s.stage.faults ++
            s.audience.report (.unresolvedChoice choice.target choice.label current)⟩

end Session

end Dialogue
