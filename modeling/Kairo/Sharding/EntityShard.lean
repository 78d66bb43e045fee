import Kairo.Lib.Turn
import Kairo.Sharding.RegionProtocol

/-!
# The entity shard actor

`EntityShard` owns the children of the entities of one shard and answers the handoff of the shard: it
plans the handoff with the runtime, after the update of the remember store that is in flight, and tells
those who wait for the entity stopper when the last child is gone.  While the remembered entities are
loaded all other messages are stashed.
-/

namespace Kairo.Sharding

open Kairo.Lib

inductive ShardMsg (M Ref : Type)
  | deliver (message : ShardingEnvelope M) (replyTo : Ref)
  | passivate (entityId : EntityId) (stopMessage : M)
  | entityTerminated (entityId : EntityId)
  | observedEntityTerminated (entityId : EntityId) (uid : ℕ)
  | restartRememberedEntity (entityId : EntityId)
  | rememberedEntitiesMovedToOtherShard (entities : List EntityId)
  | handOff (stopMessage : M) (replyTo : HandOffReplyTo Ref)
  | handOffStopperTerminated (replyTo : StopperReplyTo Ref)
  | recoverRememberedEntities (entities : List EntityId)
  | rememberedEntitiesLoaded (entities : List EntityId)
  /-- The loaded entities, or none when loading has failed. -/
  | rememberStoreLoadResult (result : Option (List EntityId))
  | rememberUpdateDone (update : RememberShardUpdate)
  | rememberStoreUpdateResult (result : Option RememberShardUpdate)
  | setPreparingForShutdown (preparing : Bool)
  | getState

inductive ShardEffect (M Ref : Type)
  | spawnEntity (entityId : EntityId) (uid : ℕ)
  | tellEntity (entityId : EntityId) (message : M)
  | stopEntity (entityId : EntityId) (uid : ℕ)
  | updateStore (update : RememberShardUpdate)
  | delivered (replyTo : Ref) (plan : ShardDeliverPlan M)
  | planned (replyTo : HandOffReplyTo Ref) (plan : ShardHandOffPlan M)
  | answered (replyTo : StopperReplyTo Ref) (answer : Bool)
  | stopSelf

structure EntityShard (M Ref : Type) where
  runtime : ShardRuntime M
  entityRefs : FinMap EntityId ℕ
  loading : Bool
  stashed : List (ShardMsg M Ref)
  rememberStore : Bool
  pendingHandoffs : List (M × HandOffReplyTo Ref)
  handoffCompletionWaiters : List (StopperReplyTo Ref)

/-- What a turn of a shard finds outside. -/
structure ShardEnv where
  unspawnable : Finset EntityId
  rejecting : Finset EntityId
  storeRejects : Bool
  uid : ℕ

inductive ShardFailure
  | unspawnable (entityId : EntityId)
  | rejected
  deriving DecidableEq

abbrev ShardTurn (M Ref : Type) := Turn (EntityShard M Ref) (ShardEffect M Ref) ShardFailure

namespace EntityShard

open Turn

variable {M Ref : Type}

def new (shardId : ShardId) (bufferCapacity : ℕ) : EntityShard M Ref :=
  ⟨.new shardId bufferCapacity, ∅, false, [], false, [], []⟩

def withRuntime {α : Type} (f : ShardRuntime M → ShardRuntime M × α) : ShardTurn M Ref α :=
  updateGet fun a => ({ a with runtime := (f a.runtime).1 }, (f a.runtime).2)

variable (env : ShardEnv)

/-! ## Entities -/

def ensureEntityChild (entityId : EntityId) : ShardTurn M Ref Unit := do
  let a ← state
  if entityId ∈ a.entityRefs then pure ()
  else do
    check (decide (entityId ∉ env.unspawnable)) (.unspawnable entityId)
    send (.spawnEntity entityId env.uid)
    update fun a => { a with entityRefs := a.entityRefs.insert entityId env.uid }

def tellEntity (entityId : EntityId) (message : M) : ShardTurn M Ref Unit := do
  check (decide (entityId ∉ env.rejecting)) .rejected
  send (.tellEntity entityId message)

def deliverToEntity (delivery : EntityDelivery M) : ShardTurn M Ref Unit := do
  ensureEntityChild env delivery.entityId
  tellEntity env delivery.entityId delivery.message

def tellChild (entityId : EntityId) (message : M) : ShardTurn M Ref Unit := do
  let a ← state
  if entityId ∈ a.entityRefs then tellEntity env entityId message else pure ()

def sendRememberUpdate (next : Option RememberShardUpdate) : ShardTurn M Ref Unit := do
  let a ← state
  match next with
  | some u =>
    if a.rememberStore then do
      check (!env.storeRejects) .rejected
      send (.updateStore u)
    else pure ()
  | none => pure ()

def applyDeliverPlan (plan : ShardDeliverPlan M) : ShardTurn M Ref Unit :=
  match plan with
  | .startEntity delivery | .deliver delivery => deliverToEntity env delivery
  | .rememberUpdate u => sendRememberUpdate env (some u)
  | _ => pure ()

def applyRestartPlan (plan : RestartRememberedEntityPlan) : ShardTurn M Ref Unit :=
  match plan with
  | .started entityId => ensureEntityChild env entityId
  | _ => pure ()

def applyTerminationPlan (plan : EntityTerminatedPlan M) : ShardTurn M Ref Unit :=
  match plan with
  | .restart buffered => buffered.forM (deliverToEntity env)
  | .restartRemembered entityId => do
    let plan ← withRuntime (·.restartRememberedEntity entityId)
    applyRestartPlan env plan
  | .rememberUpdate u => sendRememberUpdate env (some u)
  | _ => pure ()

/-! ## Handoffs -/

def completeHandoffWaiters : ShardTurn M Ref Unit := do
  let waiters ← updateGet fun a =>
    ({ a with handoffCompletionWaiters := [] }, a.handoffCompletionWaiters)
  waiters.forM fun replyTo => send (.answered replyTo true)

def completeHandoffIfReady : ShardTurn M Ref Unit := do
  let a ← state
  if ¬ a.runtime.handoffInProgress ∨ ¬ a.entityRefs = ∅ ∨ a.handoffCompletionWaiters = [] then pure ()
  else do
    let _ ← withRuntime (·.handoffStopperTerminated)
    completeHandoffWaiters

def planHandoff (stopMessage : M) (replyTo : HandOffReplyTo Ref) : ShardTurn M Ref Unit := do
  let plan ← withRuntime (·.handoff stopMessage)
  match plan with
  | .startEntityStopper _ entities stop | .stopImmediately _ entities stop =>
    entities.forM fun entityId => tellChild env entityId stop
  | _ => pure ()
  send (.planned replyTo plan)

def applyHandoff (stopMessage : M) (replyTo : HandOffReplyTo Ref) : ShardTurn M Ref Unit := do
  let a ← state
  if a.runtime.remember.updateInProgress then
    update fun a => { a with pendingHandoffs := a.pendingHandoffs ++ [(stopMessage, replyTo)] }
  else planHandoff env stopMessage replyTo

/-- The pending handoffs, unless another update of the store is in flight; what is left when one of
them fails is lost with the actor. -/
def drainPendingHandoffs : ShardTurn M Ref Unit := do
  let a ← state
  if a.runtime.remember.updateInProgress then pure ()
  else do
    let pending ← updateGet fun a => ({ a with pendingHandoffs := [] }, a.pendingHandoffs)
    pending.forM fun x => planHandoff env x.1 x.2

def applyStopperTerminated (replyTo : StopperReplyTo Ref) : ShardTurn M Ref Unit := do
  let a ← state
  if ¬ a.runtime.handoffInProgress then send (.answered replyTo false)
  else if a.entityRefs = ∅ then do
    let _ ← withRuntime (·.handoffStopperTerminated)
    send (.answered replyTo true)
    completeHandoffWaiters
  else update fun a => { a with
    handoffCompletionWaiters := a.handoffCompletionWaiters ++ [replyTo] }

/-! ## The turn -/

def applyEntityTerminated (entityId : EntityId) : ShardTurn M Ref Unit := do
  update fun a => { a with entityRefs := a.entityRefs.erase entityId }
  let plan ← withRuntime (·.entityTerminated entityId)
  applyTerminationPlan env plan
  completeHandoffIfReady

def applyRememberedEntities (entities : List EntityId) : ShardTurn M Ref Unit := do
  let plan ← withRuntime (·.recoverRememberedEntities entities)
  plan.started.forM (ensureEntityChild env)

def applyUpdateDone (done : RememberShardUpdate) : ShardTurn M Ref Unit := do
  let plan ← withRuntime (·.rememberUpdateDone done)
  plan.deliveries.forM (deliverToEntity env)
  sendRememberUpdate env plan.nextUpdate
  drainPendingHandoffs env

def removeMoved (entityId : EntityId) : ShardTurn M Ref Unit := do
  let a ← state
  match a.entityRefs.lookup entityId with
  | some uid => do
    update fun a => { a with entityRefs := a.entityRefs.erase entityId }
    send (.stopEntity entityId uid)
  | none => pure ()

def receiveInitialized : ShardMsg M Ref → ShardTurn M Ref Unit
  | .deliver message replyTo => do
    let plan ← withRuntime (·.deliver message)
    applyDeliverPlan env plan
    send (.delivered replyTo plan)
  | .passivate entityId stopMessage => do
    let plan ← withRuntime (·.passivate entityId stopMessage)
    match plan with
    | .sendStop entityId stopMessage => tellChild env entityId stopMessage
    | .ignored _ _ => pure ()
  | .entityTerminated entityId => applyEntityTerminated env entityId
  | .observedEntityTerminated entityId uid => do
    let a ← state
    if a.entityRefs.lookup entityId = some uid then applyEntityTerminated env entityId else pure ()
  | .restartRememberedEntity entityId => do
    let plan ← withRuntime (·.restartRememberedEntity entityId)
    applyRestartPlan env plan
  | .rememberedEntitiesMovedToOtherShard entities => do
    let plan ← withRuntime (·.rememberedEntitiesMovedToOtherShard entities)
    plan.removed.forM removeMoved
    sendRememberUpdate env plan.update
  | .handOff stopMessage replyTo => applyHandoff env stopMessage replyTo
  | .handOffStopperTerminated replyTo => applyStopperTerminated replyTo
  | .recoverRememberedEntities entities | .rememberedEntitiesLoaded entities =>
    applyRememberedEntities env entities
  | .rememberStoreLoadResult result =>
    match result with
    | some _ => pure ()
    | none => send .stopSelf
  | .rememberUpdateDone done => applyUpdateDone env done
  | .rememberStoreUpdateResult result =>
    match result with
    | some done => applyUpdateDone env done
    | none => send .stopSelf
  | .setPreparingForShutdown preparing =>
    update fun a => { a with runtime := { a.runtime with preparingForShutdown := preparing } }
  | .getState => pure ()

/-- The end of loading: what was stashed is handled in the same turn. -/
def replayStashed : ShardTurn M Ref Unit := do
  let stashed ← updateGet fun a => ({ a with loading := false, stashed := [] }, a.stashed)
  stashed.forM (receiveInitialized env)

def receiveWhileLoading : ShardMsg M Ref → ShardTurn M Ref Unit
  | .recoverRememberedEntities entities | .rememberedEntitiesLoaded entities => do
    applyRememberedEntities env entities
    replayStashed env
  | .rememberStoreLoadResult result =>
    match result with
    | some entities => do
      applyRememberedEntities env entities
      replayStashed env
    | none => send .stopSelf
  | other => update fun a => { a with stashed := a.stashed ++ [other] }

def receive (message : ShardMsg M Ref) : ShardTurn M Ref Unit := do
  let a ← state
  if a.loading then receiveWhileLoading env message else receiveInitialized env message

end EntityShard

end Kairo.Sharding
