import Mathlib.Data.String.Basic
import Kairo.Sharding.RegionRuntime

/-!
# The entity lifecycle of a shard

`ShardRuntime`: the states of the entities of one shard, their bounded buffers, the updates of the
remember store (at most one in flight, later ones batched), and the flag of a running handoff.
-/

namespace Kairo.Sharding

open Kairo.Lib

/-! ## Updates of the remember store -/

structure RememberShardUpdate where
  started : Finset EntityId
  stopped : Finset EntityId
  deriving DecidableEq

structure ShardRememberState where
  enabled : Bool
  updateInProgress : Bool
  pendingStarts : Finset EntityId
  pendingStops : Finset EntityId
  deriving DecidableEq

namespace ShardRememberState

def disabled : ShardRememberState := ⟨false, false, ∅, ∅⟩

def new : ShardRememberState := ⟨true, false, ∅, ∅⟩

variable (r : ShardRememberState)

def recordStart (entityId : EntityId) : ShardRememberState × Option RememberShardUpdate :=
  if ¬ r.enabled then (r, none)
  else
    let r := { r with pendingStops := r.pendingStops.erase entityId }
    if r.updateInProgress then ({ r with pendingStarts := insert entityId r.pendingStarts }, none)
    else ({ r with updateInProgress := true }, some ⟨{entityId}, ∅⟩)

def recordStop (entityId : EntityId) : ShardRememberState × Option RememberShardUpdate :=
  if ¬ r.enabled then (r, none)
  else
    let r := { r with pendingStarts := r.pendingStarts.erase entityId }
    if r.updateInProgress then ({ r with pendingStops := insert entityId r.pendingStops }, none)
    else ({ r with updateInProgress := true }, some ⟨∅, {entityId}⟩)

def completeUpdate (update : RememberShardUpdate) :
    ShardRememberState × Option RememberShardUpdate :=
  if ¬ r.enabled then (r, none)
  else
    let starts := r.pendingStarts \ update.started
    let stops := r.pendingStops \ update.stopped
    if starts = ∅ ∧ stops = ∅ then (⟨r.enabled, false, ∅, ∅⟩, none)
    else (⟨r.enabled, true, ∅, ∅⟩, some ⟨starts, stops⟩)

end ShardRememberState

/-! ## Plans -/

structure EntityDelivery (M : Type*) where
  entityId : EntityId
  message : M
  deriving DecidableEq

inductive ShardEntityState
  | active
  | passivating
  | rememberingStop
  | waitingForRestart
  deriving DecidableEq

inductive ShardDropReason
  | emptyEntityId
  | bufferFull
  deriving DecidableEq

inductive ShardDeliverPlan (M : Type*)
  | startEntity (delivery : EntityDelivery M)
  | rememberUpdate (update : RememberShardUpdate)
  | deliver (delivery : EntityDelivery M)
  | buffered (entityId : EntityId)
  | dropped (entityId : Option EntityId) (reason : ShardDropReason) (message : M)

inductive PassivateIgnoreReason
  | unknownEntity
  | alreadyPassivating
  deriving DecidableEq

inductive PassivatePlan (M : Type*)
  | sendStop (entityId : EntityId) (stopMessage : M)
  | ignored (entityId : EntityId) (reason : PassivateIgnoreReason)

inductive EntityTerminatedPlan (M : Type*)
  | removed (entityId : EntityId)
  | restart (buffered : List (EntityDelivery M))
  | restartRemembered (entityId : EntityId)
  | rememberUpdate (update : RememberShardUpdate)
  | rememberUpdateQueued (entityId : EntityId)
  | ignoredUnknown (entityId : EntityId)

inductive RestartRememberedEntityIgnoreReason
  | notRememberingEntities
  | notWaitingForRestart
  deriving DecidableEq

inductive RestartRememberedEntityPlan
  | started (entityId : EntityId)
  | alreadyActive (entityId : EntityId)
  | ignored (entityId : EntityId) (reason : RestartRememberedEntityIgnoreReason)

structure MovedRememberedEntitiesPlan where
  removed : List EntityId
  ignored : List EntityId
  update : Option RememberShardUpdate

structure RememberedEntitiesPlan where
  started : List EntityId
  alreadyActive : List EntityId
  ignoredEmpty : ℕ

structure RememberUpdateDonePlan (M : Type*) where
  deliveries : List (EntityDelivery M)
  nextUpdate : Option RememberShardUpdate

inductive ShardHandOffPlan (M : Type*)
  | startEntityStopper (shard : ShardId) (entities : List EntityId) (stopMessage : M)
  | stopImmediately (shard : ShardId) (entities : List EntityId) (stopMessage : M)
  | replyShardStopped (shard : ShardId)
  | alreadyInProgress (shard : ShardId)

/-! ## The runtime -/

structure ShardRuntime (M : Type*) where
  shardId : ShardId
  bufferCapacity : ℕ
  entities : FinMap EntityId ShardEntityState
  messageBuffers : FinMap EntityId (List M)
  bufferedMessageCount : ℕ
  remember : ShardRememberState
  preparingForShutdown : Bool
  handoffInProgress : Bool

namespace ShardRuntime

variable {M : Type*}

def new (shardId : ShardId) (bufferCapacity : ℕ) : ShardRuntime M where
  shardId
  bufferCapacity
  entities := ∅
  messageBuffers := ∅
  bufferedMessageCount := 0
  remember := .disabled
  preparingForShutdown := false
  handoffInProgress := false

def newWithRememberEntities (shardId : ShardId) (bufferCapacity : ℕ) : ShardRuntime M :=
  { new shardId bufferCapacity with remember := .new }

variable (rt : ShardRuntime M)

/-- The running entities; an entity that is stopping runs until its child has terminated. -/
def activeEntityIds : List EntityId :=
  ordered (rt.entities.keys.filter fun e =>
    rt.entities.lookup e = some .active ∨ rt.entities.lookup e = some .passivating)

def buffer (entityId : EntityId) : List M := (rt.messageBuffers.lookup entityId).getD []

def removeBuffer (entityId : EntityId) : ShardRuntime M :=
  { rt with
    messageBuffers := rt.messageBuffers.erase entityId
    bufferedMessageCount := rt.bufferedMessageCount - (rt.buffer entityId).length }

def bufferMessage (entityId : EntityId) (message : M) : Option (ShardRuntime M) :=
  if rt.bufferCapacity ≤ rt.bufferedMessageCount then none
  else some { rt with
    messageBuffers := rt.messageBuffers.insert entityId (rt.buffer entityId ++ [message])
    bufferedMessageCount := rt.bufferedMessageCount + 1 }

def recoverRememberedEntities (entities : List EntityId) :
    ShardRuntime M × RememberedEntitiesPlan :=
  (ordered entities.toFinset).foldl (fun (rt, plan) entityId =>
    if entityId = "" then (rt, { plan with ignoredEmpty := plan.ignoredEmpty + 1 })
    else match rt.entities.lookup entityId with
      | some _ => (rt, { plan with alreadyActive := plan.alreadyActive ++ [entityId] })
      | none => ({ rt with entities := rt.entities.insert entityId .active },
          { plan with started := plan.started ++ [entityId] }))
    (rt, ⟨[], [], 0⟩)

def startEntity (entityId : EntityId) (message : M) : ShardRuntime M × ShardDeliverPlan M :=
  ({ rt with entities := rt.entities.insert entityId .active }, .startEntity ⟨entityId, message⟩)

def bufferNewRememberedEntity (entityId : EntityId) (message : M) :
    ShardRuntime M × ShardDeliverPlan M :=
  match rt.bufferMessage entityId message with
  | some rt =>
    match rt.remember.recordStart entityId with
    | (remember, some update) => ({ rt with remember }, .rememberUpdate update)
    | (remember, none) => ({ rt with remember }, .buffered entityId)
  | none => (rt, .dropped (some entityId) .bufferFull message)

def deliver (envelope : ShardingEnvelope M) : ShardRuntime M × ShardDeliverPlan M :=
  let ⟨entityId, message⟩ := envelope
  if entityId = "" then (rt, .dropped none .emptyEntityId message)
  else match rt.entities.lookup entityId with
    | some .active => (rt, .deliver ⟨entityId, message⟩)
    | some .waitingForRestart => rt.startEntity entityId message
    | some .passivating | some .rememberingStop =>
      match rt.bufferMessage entityId message with
      | some rt => (rt, .buffered entityId)
      | none => (rt, .dropped (some entityId) .bufferFull message)
    | none =>
      if rt.remember.enabled then rt.bufferNewRememberedEntity entityId message
      else rt.startEntity entityId message

def rememberUpdateDone (update : RememberShardUpdate) :
    ShardRuntime M × RememberUpdateDonePlan M :=
  let (rt, deliveries) := (ordered update.started).foldl (fun (rt, deliveries) entityId =>
    if entityId = "" then (rt, deliveries)
    else
      let buffered := rt.buffer entityId
      ({ rt.removeBuffer entityId with entities := rt.entities.insert entityId .active },
        deliveries ++ buffered.map fun message => ⟨entityId, message⟩)) (rt, [])
  let rt := (ordered update.stopped).foldl (fun (rt : ShardRuntime M) entityId =>
    let hasBufferedMessages := 0 < (rt.buffer entityId).length
    let rt := { rt with entities := rt.entities.erase entityId }
    if rt.remember.enabled ∧ hasBufferedMessages then
      { rt with remember := (rt.remember.recordStart entityId).1 }
    else rt.removeBuffer entityId) rt
  let (remember, nextUpdate) := rt.remember.completeUpdate update
  ({ rt with remember }, ⟨deliveries, nextUpdate⟩)

def passivate (entityId : EntityId) (stopMessage : M) : ShardRuntime M × PassivatePlan M :=
  match rt.entities.lookup entityId with
  | some .active =>
    ({ rt with entities := rt.entities.insert entityId .passivating },
      .sendStop entityId stopMessage)
  | some .passivating | some .rememberingStop => (rt, .ignored entityId .alreadyPassivating)
  | some .waitingForRestart | none => (rt, .ignored entityId .unknownEntity)

/-- During a handoff every termination only removes the entity. -/
def entityTerminated (entityId : EntityId) : ShardRuntime M × EntityTerminatedPlan M :=
  let removed : ShardRuntime M × EntityTerminatedPlan M :=
    ({ rt.removeBuffer entityId with entities := rt.entities.erase entityId }, .removed entityId)
  match rt.entities.lookup entityId with
  | none => (rt, .ignoredUnknown entityId)
  | some state =>
    if rt.handoffInProgress then removed
    else match state with
      | .active =>
        if rt.remember.enabled then
          ({ rt.removeBuffer entityId with
            entities := rt.entities.insert entityId .waitingForRestart },
            .restartRemembered entityId)
        else removed
      | .passivating =>
        if rt.remember.enabled then
          let rt := { rt with entities := rt.entities.insert entityId .rememberingStop }
          match rt.remember.recordStop entityId with
          | (remember, some update) => ({ rt with remember }, .rememberUpdate update)
          | (remember, none) => ({ rt with remember }, .rememberUpdateQueued entityId)
        else
          let buffered := rt.buffer entityId
          if buffered = [] then removed
          else ({ rt.removeBuffer entityId with entities := rt.entities.insert entityId .active },
            .restart (buffered.map fun message => ⟨entityId, message⟩))
      | .rememberingStop => (rt, .rememberUpdateQueued entityId)
      | .waitingForRestart => (rt, .restartRemembered entityId)

def restartRememberedEntity (entityId : EntityId) :
    ShardRuntime M × RestartRememberedEntityPlan :=
  if ¬ rt.remember.enabled then (rt, .ignored entityId .notRememberingEntities)
  else match rt.entities.lookup entityId with
    | some .waitingForRestart =>
      ({ rt with entities := rt.entities.insert entityId .active }, .started entityId)
    | some .active => (rt, .alreadyActive entityId)
    | some .passivating | some .rememberingStop | none =>
      (rt, .ignored entityId .notWaitingForRestart)

def rememberedEntitiesMovedToOtherShard (entities : List EntityId) :
    ShardRuntime M × MovedRememberedEntitiesPlan :=
  (ordered entities.toFinset).foldl (fun (rt, plan) entityId =>
    let ignored := (rt, { plan with ignored := plan.ignored ++ [entityId] })
    if entityId = "" ∨ ¬ rt.remember.enabled then ignored
    else match rt.entities.lookup entityId with
      | some .active | some .waitingForRestart =>
        let rt := { rt.removeBuffer entityId with entities := rt.entities.erase entityId }
        let (remember, nextUpdate) := rt.remember.recordStop entityId
        ({ rt with remember },
          { plan with
            removed := plan.removed ++ [entityId]
            update := plan.update.orElse fun _ => nextUpdate })
      | some .passivating | some .rememberingStop | none => ignored)
    (rt, ⟨[], [], none⟩)

def handoff (stopMessage : M) : ShardRuntime M × ShardHandOffPlan M :=
  if rt.handoffInProgress then (rt, .alreadyInProgress rt.shardId)
  else
    let entities := rt.activeEntityIds
    if rt.preparingForShutdown then
      ({ rt with handoffInProgress := true }, .stopImmediately rt.shardId entities stopMessage)
    else if entities = [] then (rt, .replyShardStopped rt.shardId)
    else
      ({ rt with handoffInProgress := true }, .startEntityStopper rt.shardId entities stopMessage)

/-- Ends a handoff and tells whether one was in progress. -/
def handoffStopperTerminated : ShardRuntime M × Bool :=
  ({ rt with handoffInProgress := false }, rt.handoffInProgress)

end ShardRuntime

end Kairo.Sharding
