import Kairo.Lib.Turn
import Kairo.Sharding.RegionProtocol

/-!
# The shard region actor

`ShardRegionActor` owns the routing view of a region, the references of its local shard actors, the
delivery replies of buffered envelopes and the pending restarts of local shards.  `receive` is one turn
of the actor; what the turn depends on outside the actor is a `RegionEnv`.
-/

namespace Kairo.Sharding

open Kairo.Lib

/-! ## State -/

structure LocalShardSpawner where
  shardBufferCapacity : ℕ
  /-- Set when the spawned shards remember their entities. -/
  failureBackoff : Option ℕ

structure RegionRegistration where
  retryInterval : ℕ
  registered : Bool

structure RegionRemoteCoordinator where
  target : Option String
  retryInterval : Option ℕ
  registered : Bool

namespace RegionRemoteCoordinator

def isRegistered (c : RegionRemoteCoordinator) : Bool := c.target.isSome && c.registered

def status (c : RegionRemoteCoordinator) : Option RegionRegistrationStatus :=
  c.target.map fun _ => if c.registered then .registered else .registering

end RegionRemoteCoordinator

structure RegionRemoteHandOff (M : Type*) where
  stopMessage : M
  timeout : ℕ

structure RegionHomeRequests (Ref : Type*) where
  deliveryRepliesByShard : FinMap ShardId (List Ref)
  retryScheduled : Bool

namespace RegionHomeRequests

variable {Ref : Type*} (h : RegionHomeRequests Ref)

def new : RegionHomeRequests Ref := ⟨∅, false⟩

def replies (shard : ShardId) : List Ref := (h.deliveryRepliesByShard.lookup shard).getD []

def rememberDelivery (shard : ShardId) (deliveryReplyTo : Ref) : RegionHomeRequests Ref :=
  { h with deliveryRepliesByShard :=
      h.deliveryRepliesByShard.insert shard (h.replies shard ++ [deliveryReplyTo]) }

def drain (shard : ShardId) : RegionHomeRequests Ref × List Ref :=
  ({ h with deliveryRepliesByShard := h.deliveryRepliesByShard.erase shard }, h.replies shard)

def pendingShards : List ShardId := ordered h.deliveryRepliesByShard.keys

lemma replies_rememberDelivery (shard t : ShardId) (deliveryReplyTo : Ref) :
    (h.rememberDelivery shard deliveryReplyTo).replies t =
      if t = shard then h.replies t ++ [deliveryReplyTo] else h.replies t := by
  rw [rememberDelivery, replies, FinMap.lookup_insert]
  split
  · rename_i ht
    rw [ht]
    rfl
  · rfl

lemma replies_drain (shard t : ShardId) :
    (h.drain shard).1.replies t = if t = shard then [] else h.replies t := by
  rw [drain, replies, FinMap.lookup_erase]
  split <;> rfl

end RegionHomeRequests

structure ShardRegionActor (M Ref : Type*) where
  runtime : ShardRegionRuntime M
  localShardSpawner : Option LocalShardSpawner
  /-- The uid of the actor of each local shard. -/
  localShards : FinMap ShardId ℕ
  registration : Option RegionRegistration
  remoteCoordinator : RegionRemoteCoordinator
  remoteCoordinatorTransport : Bool
  remoteHandoff : Option (RegionRemoteHandOff M)
  coordinatorDiscovery : Bool
  homeRequests : RegionHomeRequests Ref
  /-- The regions that envelopes can be forwarded to, with the paths of those that can be watched. -/
  routeTransport : Option (FinMap RegionId (Option String))
  regionWatchByPath : FinMap String RegionId
  pendingLocalRestarts : FinMap ShardId ℕ
  suppressedLocalRestarts : FinMap ShardId ℕ
  localRestartGenerations : FinMap ShardId ℕ

/-- What a turn finds outside the actor. -/
structure RegionEnv where
  path : String
  /-- Shard actors whose mailbox rejects messages. -/
  rejecting : Finset ShardId
  /-- Shards whose actor cannot be spawned or watched. -/
  unspawnable : Finset ShardId
  /-- Shards whose actor is no longer a child and cannot be stopped. -/
  gone : Finset ShardId
  /-- Regions that reject forwarded envelopes. -/
  rejectingRegions : Finset RegionId
  /-- Paths that cannot be watched. -/
  unwatchable : Finset String
  /-- The uid of the next spawned actor. -/
  uid : ℕ
  coordinatorRejects : Bool
  /-- Replies to another node cannot be serialized. -/
  unserializable : Bool

inductive RegionFailure
  | rejected
  | unspawnable (shard : ShardId)
  | invalidStopTarget (shard : ShardId)
  | unwatchable (path : String)
  | unserializable
  | discoveryRequired
  | notAvailable (shard : ShardId)
  | replayMismatch (shard : ShardId) (messages replies : ℕ)
  | forwardMismatch (region : RegionId) (messages replies : ℕ)
  | deathPact (actor : WatchedPath)
  deriving DecidableEq

/-- The text of the failures that the region words itself. -/
def RegionFailure.message : RegionFailure → Option String
  | .discoveryRequired => some "cluster targets require coordinator discovery"
  | .notAvailable shard => some s!"local shard `{shard}` is not available for buffered replay"
  | .replayMismatch shard messages replies =>
    some (s!"local shard `{shard}` buffered replay has {messages} messages but " ++
      s!"{replies} delivery replies")
  | .forwardMismatch region messages replies =>
    some (s!"region `{region}` buffered forwarding has {messages} messages but " ++
      s!"{replies} delivery replies")
  | _ => none

abbrev RegionTurn (M Ref : Type) :=
  Turn (ShardRegionActor M Ref) (RegionEffect M Ref) RegionFailure

namespace ShardRegionActor

open Turn

variable {M Ref : Type}

/-- A region without capabilities. -/
def new (selfRegion : RegionId) (bufferCapacity : ℕ) : ShardRegionActor M Ref where
  runtime := .new selfRegion bufferCapacity
  localShardSpawner := none
  localShards := ∅
  registration := none
  remoteCoordinator := ⟨none, none, false⟩
  remoteCoordinatorTransport := false
  remoteHandoff := none
  coordinatorDiscovery := false
  homeRequests := .new
  routeTransport := none
  regionWatchByPath := ∅
  pendingLocalRestarts := ∅
  suppressedLocalRestarts := ∅
  localRestartGenerations := ∅

variable (a : ShardRegionActor M Ref)

def snapshot : ShardRegionSnapshot where
  selfRegion := a.runtime.selfRegion
  localShards := a.runtime.localShards
  startingShards := a.runtime.startingShards
  handingOffShards := a.runtime.handingOffShards
  totalBuffered := a.runtime.totalBufferedCount
  registrationStatus :=
    match a.registration with
    | some r => if r.registered then .registered else .registering
    | none => a.remoteCoordinator.status.getD .disabled

def withRuntime {α : Type} (f : ShardRegionRuntime M → ShardRegionRuntime M × α) :
    RegionTurn M Ref α :=
  updateGet fun a => ({ a with runtime := (f a.runtime).1 }, (f a.runtime).2)

variable (env : RegionEnv)

def tellShard (shard : ShardId) (effect : RegionEffect M Ref) : RegionTurn M Ref Unit := do
  check (decide (shard ∉ env.rejecting)) .rejected
  send effect

def replyOptional (replyTo : Option Ref) : RegionTurn M Ref Unit := do
  let a ← state
  match replyTo with
  | some r => send (.reply r (.snapshot a.snapshot))
  | none => pure ()

/-- The end of sending an acknowledgement to another node: a failed send is tolerated. -/
def tolerateRemoteControlReplySend (reply : Ref) (ack : RegionRemoteReply) :
    RegionTurn M Ref Unit := do
  check (!env.unserializable) .unserializable
  send (.remoteReply reply ack)

/-! ## Coordinator flow -/

def registerWithCoordinator : RegionTurn M Ref Unit := do
  let a ← state
  match a.registration with
  | some registration =>
    if registration.registered then pure ()
    else do
      send (.tellCoordinator none .register)
      send (.scheduleRetryRegistration registration.retryInterval)
  | none =>
    match a.remoteCoordinator.isRegistered, a.remoteCoordinator.target with
    | false, some target => do
      if a.remoteCoordinatorTransport then send (.tellCoordinator (some target) .register)
      else pure ()
      match a.remoteCoordinator.retryInterval with
      | some interval => send (.scheduleRetryRegistration interval)
      | none => pure ()
    | _, _ => pure ()

def ensureShardHomeRetryTimer : RegionTurn M Ref Unit := do
  let a ← state
  let retryInterval := match a.registration with
    | some r => some r.retryInterval
    | none => a.remoteCoordinator.retryInterval
  match retryInterval with
  | some interval =>
    if a.homeRequests.retryScheduled then pure ()
    else do
      update fun a => { a with homeRequests := { a.homeRequests with retryScheduled := true } }
      send (.scheduleRetryShardHomes interval)
  | none => pure ()

def requestShardHomeFromCoordinator (shard : ShardId) : RegionTurn M Ref Unit := do
  let a ← state
  match a.registration with
  | some registration =>
    if registration.registered then do
      send (.tellCoordinator none (.requestShardHome shard))
      ensureShardHomeRetryTimer
    else pure ()
  | none =>
    match a.remoteCoordinator.isRegistered && a.remoteCoordinatorTransport,
        a.remoteCoordinator.target with
    | true, some target => do
      send (.tellCoordinator (some target) (.requestShardHome shard))
      ensureShardHomeRetryTimer
    | _, _ => pure ()

def requestPendingShardHomesFromCoordinator : RegionTurn M Ref Unit := do
  let a ← state
  a.homeRequests.pendingShards.forM requestShardHomeFromCoordinator

def applyRegistrationResult (ok : Bool) : RegionTurn M Ref Unit := do
  update fun a => { a with
    registration := a.registration.map fun r => { r with registered := ok } }
  if ok then requestPendingShardHomesFromCoordinator else registerWithCoordinator

def applyRemoteRegistrationAck (coordinator : String) : RegionTurn M Ref Unit := do
  let a ← state
  if a.remoteCoordinator.target = some coordinator then do
    update fun a => { a with
      remoteCoordinator := { a.remoteCoordinator with registered := true } }
    requestPendingShardHomesFromCoordinator
  else pure ()

def applyCoordinatorDiscoveryPlan (plan : RegionCoordinatorDiscoveryPlan) :
    RegionTurn M Ref Unit := do
  if plan.registrationChanged then
    update fun a => { a with
      registration := plan.registration.map fun interval => ⟨interval, false⟩
      remoteCoordinator := ⟨plan.remoteTarget, plan.remoteRetryInterval, false⟩ }
  else pure ()
  registerWithCoordinator

/-- The target of lifecycle messages: the local coordinator, or the one on another node, when the
region is registered with it. -/
def registeredCoordinator : Option (Option String) :=
  match a.registration with
  | some r => if r.registered then some none else none
  | none =>
    match a.remoteCoordinator.isRegistered && a.remoteCoordinatorTransport,
        a.remoteCoordinator.target with
    | true, some target => some (some target)
    | _, _ => none

def tellRegisteredCoordinator (message : RegionToCoordinator) : RegionTurn M Ref Unit := do
  let a ← state
  match a.registeredCoordinator with
  | some target => do
    check (!env.coordinatorRejects) .rejected
    send (.tellCoordinator target message)
  | none => pure ()

def sendGracefulShutdownToCoordinator : RegionTurn M Ref Unit :=
  tellRegisteredCoordinator env .gracefulShutdownReq

def sendRegionStoppedToCoordinator : RegionTurn M Ref Unit :=
  tellRegisteredCoordinator env .regionStopped

def tryCompleteGracefulShutdown : RegionTurn M Ref Unit := do
  let a ← state
  if a.runtime.gracefulShutdownComplete then send .stopSelf else pure ()

def applyGracefulShutdown : RegionTurn M Ref Unit := do
  let a ← state
  if a.runtime.preparingForShutdown then send .stopSelf
  else do
    update fun a => { a with runtime := { a.runtime with gracefulShutdownInProgress := true } }
    sendGracefulShutdownToCoordinator env
    tryCompleteGracefulShutdown

/-! ## Local routing -/

def spawnLocalShard (shard : ShardId) : RegionTurn M Ref Unit := do
  let a ← state
  if shard ∈ a.localShards ∨ a.localShardSpawner.isNone then pure ()
  else do
    check (decide (shard ∉ env.unspawnable)) (.unspawnable shard)
    send (.spawnShard shard env.uid)
    update fun a => { a with localShards := a.localShards.insert shard env.uid }

def startLocalShard (shard : ShardId) : RegionTurn M Ref (Option (ShardStartedPlan M)) := do
  let a ← state
  if a.localShardSpawner.isNone then pure none
  else do
    spawnLocalShard env shard
    let started ← withRuntime (·.markShardStarted shard)
    pure (some started)

def maybeStartLocalShardFromHostPlan (plan : HostShardPlan M) :
    RegionTurn M Ref (HostShardPlan M) :=
  match plan with
  | .startLocalShard shard => do
    match ← startLocalShard env shard with
    | some started => pure (.alreadyStarted shard started.started started.buffered)
    | none => pure plan
  | _ => pure plan

def maybeStartLocalShardFromHomePlan (plan : ShardHomePlan M) :
    RegionTurn M Ref (ShardHomePlan M) :=
  match plan with
  | .startLocalShard shard => do
    match ← startLocalShard env shard with
    | some started => pure (.deliverLocal shard started.buffered)
    | none => pure plan
  | _ => pure plan

def replayBufferedToLocalShard (shard : ShardId) (buffered : List (ShardingEnvelope M))
    (deliveryReplyTo : Ref) : RegionTurn M Ref ℕ := do
  let a ← state
  check (decide (shard ∈ a.localShards)) (.notAvailable shard)
  buffered.forM fun message => tellShard env shard (.deliver shard message deliveryReplyTo)
  pure buffered.length

def replayBufferedToLocalShardWithReplies (shard : ShardId) (buffered : List (ShardingEnvelope M))
    (deliveryReplyTo : List Ref) : RegionTurn M Ref ℕ := do
  let a ← state
  check (decide (shard ∈ a.localShards)) (.notAvailable shard)
  check (decide (buffered.length = deliveryReplyTo.length))
    (.replayMismatch shard buffered.length deliveryReplyTo.length)
  (buffered.zip deliveryReplyTo).forM fun (message, replyTo) =>
    tellShard env shard (.deliver shard message replyTo)
  pure buffered.length

def drainHomeRequests (shard : ShardId) : RegionTurn M Ref (List Ref) :=
  updateGet fun a =>
    ({ a with homeRequests := (a.homeRequests.drain shard).1 }, (a.homeRequests.drain shard).2)

def replayBufferedFromHostPlan (plan : HostShardPlan M) : RegionTurn M Ref (HostShardPlan M) :=
  match plan with
  | .alreadyStarted shard started buffered => do
    let deliveryReplyTo ← drainHomeRequests shard
    let _ ← replayBufferedToLocalShardWithReplies env shard buffered deliveryReplyTo
    pure (.alreadyStarted shard started [])
  | _ => pure plan

/-- Whether a region can be reached. -/
def routable (targets : FinMap RegionId (Option String)) (region : RegionId) : Bool :=
  decide (region ∈ targets ∧ region ∉ env.rejectingRegions)

def forwardBufferedToRegion (shard : ShardId) (region : RegionId)
    (buffered : List (ShardingEnvelope M)) (deliveryReplyTo : List Ref) : RegionTurn M Ref ℕ := do
  let a ← state
  match a.routeTransport with
  | none => pure 0
  | some targets => do
    check (decide (buffered.length = deliveryReplyTo.length))
      (.forwardMismatch region buffered.length deliveryReplyTo.length)
    if routable env targets region then do
      (buffered.zip deliveryReplyTo).forM fun (message, replyTo) =>
        send (.forward region shard message none replyTo)
      pure buffered.length
    else pure 0

def dispatchLocalRoutePlan (plan : RegionRoutePlan M) (routeReplyTo deliveryReplyTo : Ref) :
    RegionTurn M Ref Unit := do
  let a ← state
  match plan with
  | .deliverLocal shard message =>
    if shard ∈ a.localShards then do
      tellShard env shard (.deliver shard message deliveryReplyTo)
      send (.reply routeReplyTo (.localRoute (.deliveredToLocalShard shard)))
    else send (.reply routeReplyTo (.localRoute (.missingLocalShard shard message)))
  | .forward shard region message =>
    match a.routeTransport with
    | none => send (.reply routeReplyTo (.localRoute (.forward shard region message)))
    | some targets =>
      if routable env targets region then
        send (.forward region shard message (some routeReplyTo) deliveryReplyTo)
      else
        send (.reply routeReplyTo (.localRoute (.forwardedToRegion
          (if region ∈ targets then .sendFailed shard region message
            else .missingTarget shard region message))))
  | .buffered shard request => send (.reply routeReplyTo (.localRoute (.buffered shard request)))
  | .dropped shard reason message =>
    send (.reply routeReplyTo (.localRoute (.dropped shard reason message)))

def routeToLocalShard (shard : ShardId) (message : ShardingEnvelope M)
    (routeReplyTo deliveryReplyTo : Ref) : RegionTurn M Ref Unit := do
  let plan ← withRuntime (·.route shard message)
  match plan with
  | .buffered shard _ =>
    update fun a => { a with
      homeRequests := a.homeRequests.rememberDelivery shard deliveryReplyTo }
  | _ => pure ()
  dispatchLocalRoutePlan env plan routeReplyTo deliveryReplyTo
  match plan with
  | .buffered _ (some shard) => requestShardHomeFromCoordinator shard
  | _ => pure ()

def hostShardAndReplayBuffered (shard : ShardId) (deliveryReplyTo : Ref) :
    RegionTurn M Ref RegionBufferedReplayPlan := do
  let a ← state
  if a.localShardSpawner.isNone then pure (.missingLocalShardSpawner shard)
  else do
    let plan ← withRuntime (·.hostShard shard)
    match plan with
    | .ignoredGracefulShutdown shard => pure (.ignoredGracefulShutdown shard)
    | .alreadyStarted shard started buffered => do
      let replayed ← replayBufferedToLocalShard env shard buffered deliveryReplyTo
      pure (.replayed shard started replayed)
    | .startLocalShard shard => do
      spawnLocalShard env shard
      let started ← withRuntime (·.markShardStarted shard)
      let replayed ← replayBufferedToLocalShard env shard started.buffered deliveryReplyTo
      pure (.replayed shard started.started replayed)

def hostShardTurn (shard : ShardId) : RegionTurn M Ref (HostShardPlan M) := do
  let plan ← withRuntime (·.hostShard shard)
  let plan ← maybeStartLocalShardFromHostPlan env plan
  replayBufferedFromHostPlan env plan

/-- Starts a shard again unless the timer is stale or its restart was suppressed. -/
def restartLocalShard (shard : ShardId) (generation : ℕ) : RegionTurn M Ref Unit := do
  let a ← state
  if a.pendingLocalRestarts.lookup shard ≠ some generation then pure ()
  else do
    update fun a => { a with pendingLocalRestarts := a.pendingLocalRestarts.erase shard }
    if a.suppressedLocalRestarts.lookup shard = some generation then
      update fun a => { a with suppressedLocalRestarts := a.suppressedLocalRestarts.erase shard }
    else if a.localShardSpawner.isNone ∨ shard ∈ a.localShards then pure ()
    else do
      let _ ← hostShardTurn env shard
      pure ()

/-! ## Stops and restarts of local shards -/

def suppressPendingLocalRestart (shard : ShardId) : RegionTurn M Ref Unit :=
  update fun a =>
    match a.pendingLocalRestarts.lookup shard with
    | some generation =>
      { a with suppressedLocalRestarts := a.suppressedLocalRestarts.insert shard generation }
    | none => a

/-- Generations are 64-bit numbers that wrap around. -/
def nextGeneration (shard : ShardId) : ℕ :=
  match a.localRestartGenerations.lookup shard with
  | some generation => (generation + 1) % 2 ^ 64
  | none => 1

def schedulePendingLocalRestart (shard : ShardId) : RegionTurn M Ref ℕ :=
  updateGet fun a =>
    let generation := a.nextGeneration shard
    ({ a with
      localRestartGenerations := a.localRestartGenerations.insert shard generation
      pendingLocalRestarts := a.pendingLocalRestarts.insert shard generation
      suppressedLocalRestarts := a.suppressedLocalRestarts.erase shard }, generation)

def rememberedShardRestartBackoff (shard : ShardId) : Option ℕ :=
  if shard ∉ a.localShards then none
  else if shard ∈ a.runtime.handingOffShards ∨ a.runtime.gracefulShutdownInProgress then none
  else a.localShardSpawner.bind (·.failureBackoff)

def forgetShard (shard : ShardId) : RegionTurn M Ref Unit :=
  update fun a => { a with
    runtime := a.runtime.markShardStopped shard
    localShards := a.localShards.erase shard }

def markLocalShardStopped (shard : ShardId) : RegionTurn M Ref Unit := do
  let a ← state
  forgetShard shard
  match a.rememberedShardRestartBackoff shard with
  | some backoff => do
    let generation ← schedulePendingLocalRestart shard
    send (.scheduleRestart backoff shard generation)
  | none => pure ()

/-- The local shard whose actor has a path. -/
def shardAt : WatchedPath → Option ShardId
  | .shard shard uid => if a.localShards.lookup shard = some uid then some shard else none
  | .other _ => none

def applyWatchedRegionTerminated (path : String) (region : RegionId) : RegionTurn M Ref Unit :=
  update fun a => { a with
    regionWatchByPath := a.regionWatchByPath.erase path
    runtime := (a.runtime.markRegionStopped region).1
    routeTransport := a.routeTransport.map (·.erase region) }

def signalTerminated (actor : WatchedPath) : RegionTurn M Ref Unit := do
  let a ← state
  match a.shardAt actor with
  | some shard => do
    markLocalShardStopped shard
    tryCompleteGracefulShutdown
  | none =>
    match actor with
    -- a child of an earlier incarnation
    | .shard _ _ => pure ()
    | .other path =>
      match a.regionWatchByPath.lookup path with
      | some region => applyWatchedRegionTerminated path region
      | none => fail (.deathPact actor)

def markRegionStopped (region : RegionId) : RegionTurn M Ref Unit :=
  update fun a => { a with
    runtime := (a.runtime.markRegionStopped region).1
    routeTransport := a.routeTransport.map (·.erase region) }

/-! ## Shard homes -/

def watchRegionFromHomePlan (plan : ShardHomePlan M) : RegionTurn M Ref Unit := do
  let a ← state
  match plan with
  | .forward _ region _ =>
    if region = a.runtime.selfRegion then pure ()
    else match (a.routeTransport.bind (·.lookup region)).join with
      | none => pure ()
      | some path =>
        if path = env.path ∨ a.regionWatchByPath.lookup path = some region then pure ()
        else do
          check (decide (path ∉ env.unwatchable)) (.unwatchable path)
          send (.watchRegion path)
          update fun a => { a with regionWatchByPath := a.regionWatchByPath.insert path region }
  | _ => pure ()

def recordHome (shard : ShardId) (region : RegionId) :
    RegionTurn M Ref (Except ShardingError (ShardHomePlan M)) :=
  updateGet fun a =>
    match a.runtime.recordShardHome shard region with
    | .ok (rt, plan) => ({ a with runtime := rt }, .ok plan)
    | .error e => (a, .error e)

def recordShardHome (shard : ShardId) (region : RegionId) :
    RegionTurn M Ref (Except ShardingError (ShardHomePlan M)) := do
  match ← recordHome shard region with
  | .ok plan => do
    watchRegionFromHomePlan env plan
    let plan ← maybeStartLocalShardFromHomePlan env plan
    pure (.ok plan)
  | .error e => pure (.error e)

def applyCoordinatorShardHomePlan (plan : ShardHomePlan M) (deliveryReplyTo : List Ref) :
    RegionTurn M Ref Unit := do
  let plan ← maybeStartLocalShardFromHomePlan env plan
  match plan with
  | .deliverLocal shard buffered => do
    let _ ← replayBufferedToLocalShardWithReplies env shard buffered deliveryReplyTo
    pure ()
  | .forward shard region buffered => do
    let _ ← forwardBufferedToRegion env shard region buffered deliveryReplyTo
    pure ()
  | .startLocalShard _ => pure ()

def applyRemoteCoordinatorShardHome (shard : ShardId) (region : RegionId) :
    RegionTurn M Ref Unit := do
  match ← recordHome shard region with
  | .ok plan => do
    watchRegionFromHomePlan env plan
    let deliveryReplyTo ← drainHomeRequests shard
    applyCoordinatorShardHomePlan env plan deliveryReplyTo
  | .error _ => pure ()

/-- The home that an answer of the coordinator names for the requested shard. -/
def homeOf (requestedShard : ShardId) : Except ShardingError GetShardHomePlan → Option RegionId
  | .ok (.reply shard region) | .ok (.allocated shard region) =>
    if shard = requestedShard then some region else none
  | _ => none

def applyCoordinatorShardHomeResult (requestedShard : ShardId)
    (result : Except ShardingError GetShardHomePlan) : RegionTurn M Ref Unit :=
  match homeOf requestedShard result with
  | some region => applyRemoteCoordinatorShardHome env requestedShard region
  | none => pure ()

/-! ## Handoff -/

def dispatchLocalHandoffPlan (plan : HandOffPlan) (stopMessage : M) (shardReplyTo : Ref) :
    RegionTurn M Ref RegionLocalHandOffPlan := do
  let a ← state
  match plan with
  | .forwardToLocalShard shard droppedBuffered =>
    if shard ∈ a.localShards then do
      tellShard env shard (.handOffShard shard stopMessage (.ref shardReplyTo))
      pure (.forwardedToLocalShard shard droppedBuffered)
    else pure (.missingLocalShard shard droppedBuffered)
  | .replyShardStopped shard stopped droppedBuffered =>
    pure (.replyShardStopped shard stopped droppedBuffered)

def completeLocalShardHandoff (shard : ShardId) (timeout : ℕ) (replyTo : Ref) :
    RegionTurn M Ref Unit := do
  let a ← state
  if shard ∈ a.localShards then send (.askStopper shard timeout (.completion replyTo))
  else send (.reply replyTo (.completion (.failed shard .missingLocalShard)))

def stopLocalShard (shard : ShardId) : RegionTurn M Ref Unit := do
  let a ← state
  match a.localShards.lookup shard with
  | some uid => do
    check (decide (shard ∉ env.gone)) (.invalidStopTarget shard)
    send (.stopShard shard uid)
  | none => pure ()
  forgetShard shard

def applyLocalShardHandoffStopperResult (shard : ShardId) :
    AskResult → RegionTurn M Ref RegionLocalHandOffCompletionPlan
  | .ok true => do
    stopLocalShard env shard
    pure (.completed shard shard)
  | .ok false => pure (.failed shard .stopperNotInProgress)
  | .timeout timeout => pure (.failed shard (.stopperTimeout timeout))

def completeRemoteHandoff (shard : ShardId) (reply : Ref) : RegionTurn M Ref Unit := do
  stopLocalShard env shard
  if env.unserializable then do
    tryCompleteGracefulShutdown
    fail .unserializable
  else do
    send (.remoteReply reply (.shardStopped shard))
    tryCompleteGracefulShutdown

def applyRemoteHandoff (shard : ShardId) (reply : Ref) : RegionTurn M Ref Unit := do
  let plan ← withRuntime (·.handoff shard)
  let a ← state
  match plan, a.remoteHandoff with
  | .replyShardStopped _ stopped _, _ =>
    tolerateRemoteControlReplySend env reply (.shardStopped stopped)
  | .forwardToLocalShard shard _, some handoff =>
    if shard ∈ a.localShards then
      tellShard env shard
        (.handOffShard shard handoff.stopMessage (.observed handoff.timeout reply))
    else completeRemoteHandoff env shard reply
  | .forwardToLocalShard _ _, none => pure ()

def applyRemoteLocalShardHandoffObserved (plan : ShardHandOffPlan M) (timeout : ℕ) (reply : Ref) :
    RegionTurn M Ref Unit :=
  match plan with
  | .replyShardStopped shard | .stopImmediately shard _ _ => completeRemoteHandoff env shard reply
  | .startEntityStopper shard _ _ => do
    let a ← state
    if shard ∈ a.localShards then send (.askStopper shard timeout (.remote reply)) else pure ()
  | .alreadyInProgress _ => pure ()

def applyRemoteHostShard (shard : ShardId) (reply : Ref) : RegionTurn M Ref Unit := do
  let plan ← withRuntime (·.hostShard shard)
  match plan with
  | .ignoredGracefulShutdown _ => sendGracefulShutdownToCoordinator env
  | _ => do
    let plan ← maybeStartLocalShardFromHostPlan env plan
    let plan ← replayBufferedFromHostPlan env plan
    match plan with
    | .alreadyStarted _ started _ =>
      tolerateRemoteControlReplySend env reply (.shardStarted started)
    | _ => pure ()

def applyRemoteBeginHandoff (shard : ShardId) (reply : Ref) : RegionTurn M Ref Unit := do
  match ← withRuntime (·.beginHandoff shard) with
  | .ack _ ack => tolerateRemoteControlReplySend env reply (.beginHandOffAck ack)
  | .ignoredPreparingForShutdown _ => pure ()

/-! ## The turn -/

def receive : ShardRegionMsg M Ref → RegionTurn M Ref Unit
  | .setClusterTargets remoteRegions => do
    let a ← state
    check a.coordinatorDiscovery .discoveryRequired
    update fun a => { a with routeTransport := some remoteRegions }
  | .route shard message replyTo => do
    let plan ← withRuntime (·.route shard message)
    send (.reply replyTo (.route plan))
  | .routeToLocalShard shard message routeReplyTo deliveryReplyTo =>
    routeToLocalShard env shard message routeReplyTo deliveryReplyTo
  | .hostShard shard replyTo => do
    let plan ← hostShardTurn env shard
    match plan with
    | .ignoredGracefulShutdown _ => sendGracefulShutdownToCoordinator env
    | _ => pure ()
    send (.reply replyTo (.hostShard plan))
  | .hostShardAndReplayBuffered shard replyTo deliveryReplyTo => do
    let plan ← hostShardAndReplayBuffered env shard deliveryReplyTo
    match plan with
    | .ignoredGracefulShutdown _ => sendGracefulShutdownToCoordinator env
    | _ => pure ()
    send (.reply replyTo (.replay plan))
  | .recordShardHome shard region replyTo => do
    let plan ← recordShardHome env shard region
    send (.reply replyTo (.shardHome plan))
  | .markShardStarted shard replyTo => do
    let plan ← withRuntime (·.markShardStarted shard)
    send (.reply replyTo (.shardStarted plan))
  | .beginHandOff shard replyTo => do
    suppressPendingLocalRestart shard
    let plan ← withRuntime (·.beginHandoff shard)
    send (.reply replyTo (.beginHandOff plan))
  | .handOff shard replyTo => do
    suppressPendingLocalRestart shard
    let plan ← withRuntime (·.handoff shard)
    send (.reply replyTo (.handOff plan))
  | .remoteHostShard shard reply => applyRemoteHostShard env shard reply
  | .remoteBeginHandOff shard reply => applyRemoteBeginHandoff env shard reply
  | .remoteHandOff shard reply => applyRemoteHandoff env shard reply
  | .remoteLocalShardHandOffObserved plan timeout reply =>
    applyRemoteLocalShardHandoffObserved env plan timeout reply
  | .remoteLocalShardHandOffStopperResult shard result reply =>
    match result with
    | .ok true => completeRemoteHandoff env shard reply
    | _ => pure ()
  | .gracefulShutdown replyTo => do
    applyGracefulShutdown env
    replyOptional replyTo
  | .handOffToLocalShard shard stopMessage regionReplyTo shardReplyTo => do
    let plan ← withRuntime (·.handoff shard)
    let localPlan ← dispatchLocalHandoffPlan env plan stopMessage shardReplyTo
    send (.reply regionReplyTo (.localHandOff localPlan))
  | .completeLocalShardHandOff shard timeout replyTo =>
    completeLocalShardHandoff shard timeout replyTo
  | .localShardHandOffStopperResult shard result replyTo => do
    let plan ← applyLocalShardHandoffStopperResult env shard result
    send (.reply replyTo (.completion plan))
    tryCompleteGracefulShutdown
  | .coordinatorRegistrationResult ok => applyRegistrationResult ok
  | .remoteCoordinatorRegistrationAck coordinator => applyRemoteRegistrationAck coordinator
  | .retryCoordinatorRegistration => registerWithCoordinator
  | .retryPendingShardHomes => do
    update fun a => { a with homeRequests := { a.homeRequests with retryScheduled := false } }
    requestPendingShardHomesFromCoordinator
  | .coordinatorShardHomeResult requestedShard result =>
    applyCoordinatorShardHomeResult env requestedShard result
  | .remoteCoordinatorShardHome shard region => applyRemoteCoordinatorShardHome env shard region
  | .coordinatorDiscovery plan => do
    let a ← state
    if a.coordinatorDiscovery then applyCoordinatorDiscoveryPlan plan else pure ()
  | .forwardedBufferedRouteResult => pure ()
  | .markShardStopped shard replyTo => do
    markLocalShardStopped shard
    replyOptional replyTo
    tryCompleteGracefulShutdown
  | .markRegionStopped region replyTo => do
    markRegionStopped region
    replyOptional replyTo
  | .restartLocalShard shard generation => restartLocalShard env shard generation
  | .setGracefulShutdown inProgress =>
    update fun a => { a with
      runtime := { a.runtime with gracefulShutdownInProgress := inProgress } }
  | .setPreparingForShutdown preparing =>
    update fun a => { a with runtime := { a.runtime with preparingForShutdown := preparing } }
  | .getState replyTo => do
    let a ← state
    send (.reply replyTo (.snapshot a.snapshot))
  | .getLocalShard shard replyTo => do
    let a ← state
    send (.reply replyTo (.localShard (a.localShards.lookup shard)))
  | .terminated actor => signalTerminated actor

end ShardRegionActor

end Kairo.Sharding
