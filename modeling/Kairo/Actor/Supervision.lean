import Kairo.Lib.Turn

/-!
# Turns and supervision of an actor

How the runtime calls the user callbacks of an actor, and what it does when one of them fails.  The
callbacks are an input: a script lists what the calls of a run do, one after the other.  A call that
finds the script empty has not returned, and the turn is unfinished.  A panic that no `catch_unwind`
contains leaves the turn as the failure `panicked`.  The log of a turn records the calls on the actor
instances and the effects on other actors.
-/

namespace Kairo.Actor

open Kairo.Lib

abbrev ActorPath := String

inductive TerminationCause
  | stopped
  | failed (reason : String)
  deriving DecidableEq

inductive Signal
  | preRestart
  | postStop
  | terminated (actor : ActorPath)
  | childFailed (actor : ActorPath) (reason : String)
  deriving DecidableEq

/-! ## Strategies -/

inductive SupervisorStrategy
  | stop
  | resume
  | restart
  | restartPreservingChildren
  | escalate
  | restartWithLimit (maxRestarts within : ℕ) (stopChildren : Bool)
  deriving DecidableEq

def SupervisorStrategy.stopChildrenOnRestart : SupervisorStrategy → Bool
  | .restartPreservingChildren => false
  | .restartWithLimit _ _ stopChildren => stopChildren
  | _ => true

/-- The restarts in the current window. -/
structure SupervisionState where
  restartWindowStarted : Option ℕ
  restartCount : ℕ
  deriving DecidableEq

namespace SupervisionState

def default : SupervisionState := ⟨none, 0⟩

variable (s : SupervisionState)

/-- Opens a window when there is none or the last one has passed. -/
def slide (within now : ℕ) : SupervisionState :=
  if s.restartWindowStarted.all fun started => within ≠ 0 ∧ within < now - started then ⟨some now, 0⟩
  else s

def restartAllowed (maxRestarts within now : ℕ) : SupervisionState × Bool :=
  if maxRestarts = 0 then (s, false)
  else
    let s := s.slide within now
    if maxRestarts ≤ s.restartCount then (s, false)
    else ({ s with restartCount := s.restartCount + 1 }, true)

def startupRestartAllowed (maxRestarts within now : ℕ) : SupervisionState × Bool :=
  if maxRestarts ≤ 1 then (s, false)
  else
    let s := s.slide within now
    if maxRestarts ≤ s.restartCount + 1 then (s, false)
    else ({ s with restartCount := s.restartCount + 1 }, true)

end SupervisionState

structure Props where
  supervisor : SupervisorStrategy
  /-- The props have a restart factory. -/
  restartable : Bool

/-! ## Callbacks -/

inductive Outcome
  | ok
  | error (reason : String)
  | panic (message : String)
  deriving DecidableEq

/-- What one call of a user callback does. -/
structure Response where
  outcome : Outcome
  /-- The callback stops its own actor. -/
  stopsSelf : Bool
  /-- The time after the call. -/
  now : ℕ
  deriving DecidableEq

inductive Call
  | started (ok : Bool)
  | receive
  | signal (signal : Signal)
  deriving DecidableEq

inductive Event
  | call (id : ℕ) (call : Call)
  /-- A restart ends without a replacement. -/
  | noReplacement
  | stopChildren
  | restartChildren
  | escalate (reason : String)
  deriving DecidableEq

/-- Why a turn does not end. -/
inductive Interrupt
  | panicked (message : String)
  | unfinished
  deriving DecidableEq

/-- The execution of an actor, with the parts of its context that supervision uses.  Instances are
numbered in the order they are built. -/
structure Execution where
  actor : ℕ
  built : ℕ
  stopRequested : Bool
  /-- The flag that the references of the actor share. -/
  stopped : Bool
  supervision : SupervisionState
  terminationCause : TerminationCause
  clock : ℕ
  script : List Response

abbrev ActorTurn := Turn Execution Event Interrupt

open Turn

/-- The next call of the script; the context of the call is passed on unless it is a factory. -/
def respond (hasContext : Bool) : ActorTurn Response := do
  let s ← state
  match s.script with
  | [] => fail .unfinished
  | r :: script =>
    let stops := hasContext && r.stopsSelf
    update fun s => { s with
      script
      clock := r.now
      stopRequested := s.stopRequested || stops
      stopped := s.stopped || stops }
    pure r

def caught (callback : String) : Outcome → Except String Unit
  | .ok => .ok ()
  | .error reason => .error reason
  | .panic message => .error ("actor " ++ callback ++ " panicked: " ++ message)

def isOk : Except String Unit → Bool
  | .ok _ => true
  | .error _ => false

def invokeStarted (id : ℕ) : ActorTurn (Except String Unit) := do
  let r ← respond true
  let result := caught "started" r.outcome
  send (.call id (.started (isOk result)))
  pure result

def invokeReceive : ActorTurn (Except String Unit) := do
  let s ← state
  let r ← respond true
  send (.call s.actor .receive)
  pure (caught "receive" r.outcome)

def invokeSignal (signal : Signal) : ActorTurn (Except String Unit) := do
  let s ← state
  let r ← respond true
  send (.call s.actor (.signal signal))
  pure (caught "signal" r.outcome)

/-- The actor cannot use its context while it is signalled. -/
def invokePreRestart : ActorTurn (Except String Unit) := do
  let s ← state
  update fun s => { s with stopRequested := true }
  let result ← invokeSignal .preRestart
  update fun s' => { s' with stopRequested := s.stopRequested }
  pure result

/-- A factory call that gives a new instance. -/
def build (callback : String) : ActorTurn (Except String ℕ) := do
  let r ← respond false
  match r.outcome with
  | .panic message => pure (.error ("actor " ++ callback ++ " panicked: " ++ message))
  | _ => updateGet fun s => ({ s with built := s.built + 1 }, .ok s.built)

/-- The replacement, when the props have a restart factory. -/
def buildRestart (props : Props) : ActorTurn (Except String ℕ) :=
  if props.restartable then build "restart factory"
  else pure (.error "restart supervision requires restartable props")

/-! ## Restarts -/

/-- A restart that has signalled the actor and has no replacement for it. -/
def giveUpRestart (reason : String) : ActorTurn (Except String Unit) := do
  send .noReplacement
  pure (.error reason)

def replaceActor (id : ℕ) (stopChildren : Bool) : ActorTurn (Except String Unit) := do
  update fun s => { s with actor := id }
  if !stopChildren then send .restartChildren
  pure (.ok ())

def stopChildrenIf (stopChildren : Bool) : ActorTurn Unit :=
  if stopChildren then send .stopChildren else pure ()

def restartActor (props : Props) (stopChildren : Bool) : ActorTurn (Except String Unit) := do
  let _ ← invokePreRestart
  stopChildrenIf stopChildren
  match ← buildRestart props with
  | .error reason => giveUpRestart reason
  | .ok id =>
    update fun s => { s with stopRequested := false }
    match ← invokeStarted id with
    | .error reason => giveUpRestart reason
    | .ok () => replaceActor id stopChildren

def restartAllowed (maxRestarts within : ℕ) : ActorTurn Bool :=
  updateGet fun s =>
    let (supervision, allowed) := s.supervision.restartAllowed maxRestarts within s.clock
    ({ s with supervision }, allowed)

def startupRestartAllowed (maxRestarts within : ℕ) : ActorTurn Bool :=
  updateGet fun s =>
    let (supervision, allowed) := s.supervision.startupRestartAllowed maxRestarts within s.clock
    ({ s with supervision }, allowed)

/-- The attempts of a bounded restart; every attempt takes a call from the script. -/
def restartAttempts (props : Props) (maxRestarts within : ℕ) (stopChildren : Bool) :
    ℕ → ActorTurn (Except String Unit)
  | 0 => fail .unfinished
  | fuel + 1 => do
    match ← buildRestart props with
    | .error reason => giveUpRestart reason
    | .ok id =>
      update fun s => { s with stopRequested := false }
      match ← invokeStarted id with
      | .ok () => replaceActor id stopChildren
      | .error reason =>
        send .stopChildren
        if ← restartAllowed maxRestarts within then
          restartAttempts props maxRestarts within stopChildren fuel
        else giveUpRestart reason

def restartActorWithLimit (props : Props) (maxRestarts within : ℕ) (stopChildren : Bool) :
    ActorTurn (Except String Unit) := do
  let _ ← invokePreRestart
  stopChildrenIf stopChildren
  let s ← state
  restartAttempts props maxRestarts within stopChildren (s.script.length + 1)

/-- Applies the strategy to a failure; `true` stops the actor. -/
def applyActorFailure (props : Props) (reason : String) : ActorTurn Bool :=
  match props.supervisor with
  | .stop => pure true
  | .resume => pure false
  | .escalate => do
    send (.escalate reason)
    pure true
  | .restart | .restartPreservingChildren => do
    let result ← restartActor props props.supervisor.stopChildrenOnRestart
    pure (!isOk result)
  | .restartWithLimit maxRestarts within stopChildren => do
    if ← restartAllowed maxRestarts within then
      let result ← restartActorWithLimit props maxRestarts within stopChildren
      pure (!isOk result)
    else pure true

def applyReceiveResult (props : Props) : Except String Unit → ActorTurn (Option String)
  | .ok () => pure none
  | .error reason => do
    if ← applyActorFailure props reason then pure (some reason) else pure none

/-- Stops the actor after a failure that supervision does not absorb, or on its own request. -/
def stopAfter (stopReason : Option String) : ActorTurn Unit :=
  update fun s =>
    if stopReason.isSome || s.stopRequested then
      { s with
        stopped := true
        terminationCause := stopReason.elim s.terminationCause .failed }
    else s

/-! ## Start -/

def restartAfterStartFailure (props : Props) : ActorTurn (Except String Unit) := do
  send .stopChildren
  match ← buildRestart props with
  | .error reason => pure (.error reason)
  | .ok id =>
    update fun s => { s with stopRequested := false, actor := id }
    pure (.ok ())

/-- Starts the actor, and new instances as long as the strategy allows. -/
def applyStartResult (props : Props) : ℕ → ActorTurn (Option String)
  | 0 => fail .unfinished
  | fuel + 1 => do
    let s ← state
    match ← invokeStarted s.actor with
    | .ok () => pure none
    | .error reason =>
      match props.supervisor with
      | .escalate =>
        send (.escalate reason)
        pure (some reason)
      | .restartWithLimit maxRestarts within _ =>
        if ← startupRestartAllowed maxRestarts within then
          match ← restartAfterStartFailure props with
          | .ok () => applyStartResult props fuel
          | .error _ => pure (some reason)
        else pure (some reason)
      | .stop | .resume | .restart | .restartPreservingChildren => pure (some reason)

/-- Builds and starts the actor; `false` when the factory fails. -/
def startActor (props : Props) : ActorTurn Bool := do
  match ← build "factory" with
  | .error reason =>
    update fun s => { s with stopped := true, terminationCause := .failed reason }
    pure false
  | .ok id =>
    update fun s => { s with actor := id }
    let s ← state
    stopAfter (← applyStartResult props (s.script.length + 1))
    pure true

/-! ## Messages -/

/-- What is taken from the mailbox.  Whether a death-watch signal is still wanted, and whether a timer
is still the active one, is known when it is processed. -/
inductive Dequeued
  | stop
  | restart
  | signal (signal : Signal) (queued : Bool)
  | gatedSignal (signal : Signal)
  | supervisionFailure (child : ActorPath) (reason : String)
  | message
  | timer (accepted : Bool)
  | receiveTimeout (accepted : Bool)
  /-- A closure of an adapter, an ask or a death watch; it may give no message. -/
  | adapted (given : Bool)
  | closed
  deriving DecidableEq

namespace Dequeued

def isSystem : Dequeued → Bool
  | stop | restart | signal .. | gatedSignal _ | supervisionFailure .. => true
  | message | timer _ | receiveTimeout _ | adapted _ | closed => false

def isUser : Dequeued → Bool
  | message | timer _ | receiveTimeout _ | adapted _ => true
  | stop | restart | signal .. | gatedSignal _ | supervisionFailure .. | closed => false

end Dequeued

def processSignal (props : Props) (signal : Signal) : ActorTurn Bool := do
  stopAfter (← applyReceiveResult props (← invokeSignal signal))
  pure false

def processMessage (props : Props) : ActorTurn Bool := do
  stopAfter (← applyReceiveResult props (← invokeReceive))
  pure true

/-- Calls the closure of an adapted envelope, which no `catch_unwind` contains. -/
def adapt (given : Bool) : ActorTurn Bool := do
  let r ← respond false
  match r.outcome with
  | .panic message => fail (.panicked message)
  | _ => pure given

/-- Processes what was taken from the mailbox; `true` when it counts as a user message. -/
def processDequeued (props : Props) : Dequeued → ActorTurn Bool
  | .stop | .closed => do
    update fun s => { s with stopped := true }
    pure false
  | .restart => do
    let result ← restartActor props props.supervisor.stopChildrenOnRestart
    stopAfter (← applyReceiveResult props result)
    pure false
  | .signal signal queued =>
    match signal with
    | .terminated _ | .childFailed .. =>
      if queued then processSignal props signal else pure false
    | .preRestart | .postStop => processSignal props signal
  | .gatedSignal signal => processSignal props signal
  | .supervisionFailure child reason => do
    let reason := "child `" ++ child ++ "` escalated failure: " ++ reason
    let stop ← applyActorFailure props reason
    update fun s =>
      if stop || s.stopRequested then
        { s with stopped := true, terminationCause := .failed reason }
      else s
    pure false
  | .message => processMessage props
  | .adapted given => do
    if ← adapt given then processMessage props else pure false
  | .timer accepted | .receiveTimeout accepted =>
    if accepted then processMessage props else pure false

/-- Processes messages until the actor is stopped. -/
def processAll (props : Props) : List Dequeued → ActorTurn Unit
  | [] => pure ()
  | d :: ds => do
    let s ← state
    if s.stopped then pure ()
    else
      let _ ← processDequeued props d
      processAll props ds

/-- The cleanup of a stopped actor. -/
def terminate : ActorTurn Unit := do
  send .stopChildren
  let _ ← invokeSignal .postStop

/-- An actor from its start; it is terminated once it is stopped. -/
def runActor (props : Props) (ds : List Dequeued) : ActorTurn Unit := do
  if ← startActor props then
    processAll props ds
    let s ← state
    if s.stopped then terminate

def Execution.new (script : List Response) : Execution where
  actor := 0
  built := 0
  stopRequested := false
  stopped := false
  supervision := .default
  terminationCause := .stopped
  clock := 0
  script := script

end Kairo.Actor
