import Kairo.Actor.Mailbox
import Kairo.Lib.FinMap
import Kairo.Lib.Machine

/-!
# Activations and dispatcher workers

An activation of an actor is a task in the queue of the dispatcher.  A worker that takes it runs the
actor for a number of messages, clears the flag `scheduled`, and schedules the actor again if there is
more to do.  A worker that waits for the children of an actor runs other tasks on top of the waiting
one, so that a worker is a stack of activations.  An activation goes through the phases of
`run_activation`; between them other threads send, stop actors and spawn.  A panic that leaves an
activation ends its worker.
-/

namespace Kairo.Actor

open Kairo.Lib

/-! ## One activation -/

structure ActorCell where
  props : Props
  mailbox : Mailbox
  /-- The flag that the references of the actor share. -/
  stopped : Bool
  execution : Option Execution
  terminated : Bool
  /-- An activation is queued or running. -/
  scheduled : Bool
  spawned : Bool

/-- Where `run_activation`, and the code after it, is. -/
inductive Phase
  | entered
  | users (processed : ℕ)
  | processing (d : Dequeued) (processed : ℕ)
  | systems
  | processingSystem (d : Dequeued)
  | leaving
  | closing
  /-- The actor is closed and waits for its children. -/
  | waiting
  /-- The flag is cleared; the actor is about to be looked at again. -/
  | rechecking
  | recheckingMailbox
  | waking
  deriving DecidableEq

namespace Phase

def isActive : Phase → Bool
  | rechecking | recheckingMailbox | waking => false
  | _ => true

/-- The worker is going to schedule the actor if it is stopped or has messages. -/
def isRecheck : Phase → Bool
  | rechecking | waking => true
  | _ => false

/-- The worker runs other tasks meanwhile. -/
def mayWait : Phase → Bool
  | entered | processing .. | processingSystem _ | waiting => true
  | _ => false

end Phase

inductive Advance
  | next (cell : ActorCell) (phase : Phase)
  | done
  /-- The worker schedules the actor and is done. -/
  | wake
  | panicked

/-- Runs a turn of the actor; there is no result while a callback has not returned. -/
def runTurn {α : Type} (cell : ActorCell) (execution : Execution) (script : List Response)
    (t : ActorTurn α) : Option (Except String (α × ActorCell)) :=
  match t ({ execution with script, stopped := cell.stopped }, []) with
  | .ok x (s, _) =>
    some (.ok (x, { cell with
      execution := some { s with script := [] }
      stopped := cell.stopped || s.stopped }))
  | .error (.panicked message) _ => some (.error message)
  | .error .unfinished _ => none

def ActorCell.finish (cell : ActorCell) : ActorCell :=
  { cell with
    stopped := true
    execution := none
    terminated := true
    mailbox := cell.mailbox.closeAndDrainUser.1.clearScheduler }

def ActorCell.release (cell : ActorCell) : Advance := .next { cell with scheduled := false } .rechecking

def activationStep (throughput : ℕ) (cell : ActorCell) (script : List Response) :
    Phase → Option Advance
  | .entered =>
    if cell.terminated then some cell.release
    else match cell.execution with
      | some _ => some (.next cell (.users 0))
      | none => (runTurn cell (.new []) script (startActor cell.props)).map fun
        | .error _ => .panicked
        | .ok (true, cell) => .next cell (.users 0)
        | .ok (false, cell) => cell.finish.release
  | .users processed =>
    if processed < throughput ∧ cell.stopped = false then
      match cell.mailbox.tryDequeue with
      | some (d, mailbox) => some (.next { cell with mailbox } (.processing d processed))
      | none => some (.next cell .systems)
    else some (.next cell .systems)
  | .processing d processed =>
    cell.execution.bind fun execution =>
      (runTurn cell execution script (processDequeued cell.props d)).map fun
        | .error _ => .panicked
        | .ok (user, cell) => .next cell (.users (if user then processed + 1 else processed))
  | .systems =>
    if cell.stopped then some (.next cell .leaving)
    else match cell.mailbox.tryDequeueSystem with
      | some (d, mailbox) => some (.next { cell with mailbox } (.processingSystem d))
      | none => some (.next cell .leaving)
  | .processingSystem d =>
    cell.execution.bind fun execution =>
      (runTurn cell execution script (processDequeued cell.props d)).map fun
        | .error _ => .panicked
        | .ok (_, cell) => .next cell .systems
  | .leaving => if cell.stopped then some (.next cell .closing) else some cell.release
  | .closing => some (.next { cell with mailbox := cell.mailbox.closeAndDrainUser.1 } .waiting)
  | .waiting =>
    cell.execution.bind fun execution =>
      (runTurn cell execution script terminate).map fun
        | .error _ => .panicked
        | .ok (_, cell) => cell.finish.release
  | .rechecking =>
    if cell.terminated then some .done
    else if cell.stopped then some (.next cell .waking)
    else some (.next cell .recheckingMailbox)
  | .recheckingMailbox =>
    if cell.mailbox.hasMessages then some (.next cell .waking) else some .done
  | .waking => some .wake

/-! ## Workers -/

structure Dispatch (Id : Type*) where
  cells : FinMap Id ActorCell
  queue : List Id
  /-- The stacks of the running workers. -/
  workers : List (List (Id × Phase))
  /-- Threads between an enqueue, or the installation of a scheduler, and their schedule call. -/
  waking : List Id
  /-- Threads that have set the flag of an actor and are about to enqueue the stop. -/
  stopping : List Id
  /-- Activations that a panic has left. -/
  crashed : List Id

namespace Dispatch

variable {Id : Type*} [DecidableEq Id]

inductive Action (Id : Type*)
  | register (a : Id) (props : Props) (userCapacity : Option ℕ)
  | install (a : Id)
  | enqueue (a : Id) (d : Dequeued)
  | prepend (a : Id) (count : ℕ)
  | enqueueSystem (a : Id) (d : Dequeued)
  | requestStop (a : Id)
  | enqueueStop (i : ℕ)
  | wake (i : ℕ)
  | take (k : ℕ)
  | advance (k : ℕ) (script : List Response)

variable (w : Dispatch Id)

def start (workers : ℕ) : Dispatch Id := ⟨∅, [], List.replicate workers [], [], [], []⟩

def schedule (a : Id) : Dispatch Id :=
  match w.cells.lookup a with
  | none => w
  | some cell =>
    if cell.scheduled then w
    else { w with
      cells := w.cells.insert a { cell with scheduled := true }
      queue := w.queue ++ [a] }

/-- A new mailbox of an actor; its sender may have to schedule the actor. -/
def deliver (a : Id) (cell : ActorCell) (mailbox : Mailbox) (schedule : Bool) : Dispatch Id :=
  { w with
    cells := w.cells.insert a { cell with mailbox }
    waking := if schedule then w.waking ++ [a] else w.waking }

/-- A send to a closed mailbox sets the flag, unless it comes through an adapter. -/
def rejectClosed (a : Id) (cell : ActorCell) : Dequeued → Dispatch Id
  | .adapted _ => w
  | _ => { w with cells := w.cells.insert a { cell with stopped := true } }

def step (throughput : ℕ) : Action Id → Option (Dispatch Id)
  | .register a props userCapacity =>
    match w.cells.lookup a with
    | some _ => none
    | none => some { w with
        cells := w.cells.insert a ⟨props, .new userCapacity, false, none, false, false, false⟩ }
  | .install a => (w.cells.lookup a).bind fun cell =>
    if cell.spawned then none
    else some { w with
      cells := w.cells.insert a { cell with mailbox := cell.mailbox.setScheduler, spawned := true }
      waking := w.waking ++ [a] }
  | .enqueue a d => (w.cells.lookup a).bind fun cell =>
    if d.isUser then
      match cell.mailbox.enqueueEnvelope d with
      | .ok (mailbox, schedule) => some (w.deliver a cell mailbox schedule)
      | .error .closed => some (w.rejectClosed a cell d)
      | .error .full => some w
    else none
  | .prepend a count => (w.cells.lookup a).map fun cell =>
    match cell.mailbox.prependUserMessages count with
    | .ok (mailbox, schedule) => w.deliver a cell mailbox schedule
    | .error _ => w
  | .enqueueSystem a d => (w.cells.lookup a).bind fun cell =>
    if d.isSystem then
      some (w.deliver a cell (cell.mailbox.enqueueSystem d).1 (cell.mailbox.enqueueSystem d).2)
    else none
  | .requestStop a => (w.cells.lookup a).map fun cell =>
    if cell.stopped then w
    else { w with
      cells := w.cells.insert a { cell with stopped := true }
      stopping := w.stopping ++ [a] }
  | .enqueueStop i => (w.stopping[i]?).bind fun a => (w.cells.lookup a).map fun cell =>
    { w with stopping := w.stopping.eraseIdx i }.deliver a cell
      (cell.mailbox.enqueueSystem .stop).1 (cell.mailbox.enqueueSystem .stop).2
  | .wake i => (w.waking[i]?).map fun a => { w with waking := w.waking.eraseIdx i }.schedule a
  | .take k => (w.workers[k]?).bind fun stack =>
    match w.queue with
    | [] => none
    | a :: queue =>
      if stack.head?.all (·.2.mayWait) then
        some { w with queue, workers := w.workers.set k ((a, .entered) :: stack) }
      else none
  | .advance k script => (w.workers[k]?).bind fun
    | [] => none
    | (a, phase) :: rest => (w.cells.lookup a).bind fun cell =>
      (activationStep throughput cell script phase).map fun
        | .next cell phase =>
          { w with
            cells := w.cells.insert a cell
            workers := w.workers.set k ((a, phase) :: rest) }
        | .done => { w with workers := w.workers.set k rest }
        | .wake => { w with workers := w.workers.set k rest }.schedule a
        | .panicked =>
          { w with
            workers := w.workers.eraseIdx k
            crashed := w.crashed ++ a :: rest.map (·.1) }

def machine (throughput workers : ℕ) : Machine (Dispatch Id) (Action Id) where
  init w := w = start workers
  step w := w.step throughput

end Dispatch

end Kairo.Actor
