import Kairo.Sharding.RegionProtocol

/-!
# The handoff worker

One worker hands off one shard: it waits until every participant has acknowledged that it forgot the
home of the shard, tells the old owner to stop the shard, and reports whether the owner did.  One
timeout covers the whole attempt.
-/

namespace Kairo.Sharding

open Kairo.Lib

structure ShardRebalancePlan where
  shard : ShardId
  fromRegion : RegionId
  participants : Finset RegionId
  deriving DecidableEq

inductive HandoffWorkerPhase
  | idle
  | awaitingBeginAcks
  | awaitingShardStopped
  | done
  deriving DecidableEq

/-- How a region is reached: by its reference, or by the wire form of the control messages. -/
inductive HandoffRoute
  | actor
  | wire
  deriving DecidableEq

inductive HandoffWorkerMsg (M : Type*)
  | start
  | beginHandOffAck (region : RegionId) (plan : BeginHandOffPlan)
  | localHandOffForwarded (plan : RegionLocalHandOffPlan)
  | shardHandOffObserved (plan : ShardHandOffPlan M)
  | localHandOffCompleted (plan : RegionLocalHandOffCompletionPlan)
  | remoteShardStopped (region : RegionId) (stopped : ShardId)
  | regionTerminated (region : RegionId)
  | timeout
  | getState

inductive WorkerEffect (M : Type*)
  | beginHandOff (region : RegionId) (route : HandoffRoute)
  | handOff (region : RegionId) (route : HandoffRoute) (stopMessage : M)
  | completeHandOff (region : RegionId) (timeout : ℕ)
  /-- The single report to the coordinator. -/
  | report (shard : ShardId) (ok : Bool)
  | scheduleTimeout (timeout : ℕ)
  | snapshot (shard : ShardId) (phase : HandoffWorkerPhase) (remaining : Finset RegionId)
  | stopSelf

structure HandoffWorker (M : Type*) where
  plan : ShardRebalancePlan
  stopMessage : Option M
  handoffTimeout : ℕ
  /-- The routes that the coordinator had when the worker was spawned. -/
  transport : FinMap RegionId HandoffRoute
  phase : HandoffWorkerPhase
  remaining : Finset RegionId
  /-- Whether the report is still to be sent. -/
  replyTo : Bool

namespace HandoffWorker

variable {M : Type*}

def new (plan : ShardRebalancePlan) (stopMessage : M) (handoffTimeout : ℕ)
    (transport : FinMap RegionId HandoffRoute) : HandoffWorker M :=
  ⟨plan, some stopMessage, handoffTimeout, transport, .idle, ∅, false⟩

variable (rejecting : Finset RegionId) (w : HandoffWorker M)

/-- The route to a region, when there is one and it does not reject. -/
def route (region : RegionId) : Option HandoffRoute :=
  if region ∈ rejecting then none else w.transport.lookup region

def finish (ok : Bool) : HandoffWorker M × List (WorkerEffect M) :=
  if w.phase = .done then (w, [])
  else ({ w with phase := .done, remaining := ∅, replyTo := false },
    (if w.replyTo then [.report w.plan.shard ok] else []) ++ [.stopSelf])

def sendLocalHandoff : HandoffWorker M × List (WorkerEffect M) :=
  match w.stopMessage with
  | none => (w, [])
  | some stopMessage =>
    let w := { w with stopMessage := none, phase := .awaitingShardStopped }
    match w.route rejecting w.plan.fromRegion with
    | some route => (w, [.handOff w.plan.fromRegion route stopMessage])
    | none => w.finish false

/-- Sends to the participants until one of them is not reached. -/
def sendBeginHandoffs : List RegionId → HandoffWorker M × List (WorkerEffect M)
  | [] => (w, [])
  | region :: regions =>
    match w.route rejecting region with
    | some route =>
      let (w, effects) := sendBeginHandoffs regions
      (w, .beginHandOff region route :: effects)
    | none => w.finish false

def start : HandoffWorker M × List (WorkerEffect M) :=
  if w.phase ≠ .idle then (w, [])
  else
    let w := { w with
      replyTo := true, phase := .awaitingBeginAcks, remaining := w.plan.participants }
    let (w, effects) :=
      if w.remaining = ∅ then w.sendLocalHandoff rejecting
      else w.sendBeginHandoffs rejecting (ordered w.plan.participants)
    (w, .scheduleTimeout w.handoffTimeout :: effects)

/-- One participant less, and the owner is told to stop after the last one. -/
def acknowledged (region : RegionId) : HandoffWorker M × List (WorkerEffect M) :=
  let w := { w with remaining := w.remaining.erase region }
  if w.remaining = ∅ then w.sendLocalHandoff rejecting else (w, [])

def applyBeginAck (region : RegionId) (plan : BeginHandOffPlan) :
    HandoffWorker M × List (WorkerEffect M) :=
  if w.phase ≠ .awaitingBeginAcks then (w, [])
  else match plan with
    | .ack shard ack =>
      if shard ≠ w.plan.shard ∨ ack ≠ w.plan.shard then w.finish false
      else w.acknowledged rejecting region
    | .ignoredPreparingForShutdown _ => w.finish false

def applyLocalHandoff (plan : RegionLocalHandOffPlan) : HandoffWorker M × List (WorkerEffect M) :=
  if w.phase ≠ .awaitingShardStopped then (w, [])
  else match plan with
    | .forwardedToLocalShard shard _ => if shard = w.plan.shard then (w, []) else w.finish false
    | .replyShardStopped shard _ _ => w.finish (decide (shard = w.plan.shard))
    | .missingLocalShard _ _ => w.finish false

def applyShardHandoffObserved (plan : ShardHandOffPlan M) :
    HandoffWorker M × List (WorkerEffect M) :=
  if w.phase ≠ .awaitingShardStopped then (w, [])
  else match plan with
    | .replyShardStopped shard | .stopImmediately shard _ _ =>
      w.finish (decide (shard = w.plan.shard))
    | .startEntityStopper shard _ _ =>
      if shard = w.plan.shard then
        -- the wire form has no message to complete a handoff
        match w.route rejecting w.plan.fromRegion with
        | some .actor => (w, [.completeHandOff w.plan.fromRegion w.handoffTimeout])
        | _ => w.finish false
      else w.finish false
    | .alreadyInProgress _ => w.finish false

def applyLocalHandoffCompletion (plan : RegionLocalHandOffCompletionPlan) :
    HandoffWorker M × List (WorkerEffect M) :=
  if w.phase ≠ .awaitingShardStopped then (w, [])
  else match plan with
    | .completed shard stopped =>
      w.finish (decide (shard = w.plan.shard ∧ stopped = w.plan.shard))
    | .failed _ _ => w.finish false

def applyRemoteShardStopped (region : RegionId) (stopped : ShardId) :
    HandoffWorker M × List (WorkerEffect M) :=
  if w.phase ≠ .awaitingShardStopped then (w, [])
  else w.finish (decide (region = w.plan.fromRegion ∧ stopped = w.plan.shard))

def applyRegionTerminated (region : RegionId) : HandoffWorker M × List (WorkerEffect M) :=
  match w.phase with
  | .awaitingBeginAcks => w.acknowledged rejecting region
  | .awaitingShardStopped => if region = w.plan.fromRegion then w.finish true else (w, [])
  | _ => (w, [])

def receive : HandoffWorkerMsg M → HandoffWorker M × List (WorkerEffect M)
  | .start => w.start rejecting
  | .beginHandOffAck region plan => w.applyBeginAck rejecting region plan
  | .localHandOffForwarded plan => w.applyLocalHandoff plan
  | .shardHandOffObserved plan => w.applyShardHandoffObserved rejecting plan
  | .localHandOffCompleted plan => w.applyLocalHandoffCompletion plan
  | .remoteShardStopped region stopped => w.applyRemoteShardStopped region stopped
  | .regionTerminated region => w.applyRegionTerminated rejecting region
  | .timeout => w.finish false
  | .getState => (w, [.snapshot w.plan.shard w.phase w.remaining])

end HandoffWorker

end Kairo.Sharding
