import Kairo.Lib.Turn
import Kairo.Sharding.CoordinatorRuntime

/-!
# The shard coordinator actor

`ShardCoordinator` serializes the changes of its runtime, spawns the handoff workers of the planned
rebalances and routes the answers of regions on other nodes to them.  While the remembered shards are
loaded all messages but the result and `terminate` are stashed.
-/

namespace Kairo.Sharding

open Kairo.Lib

inductive ShardCoordinatorMsg
  | applyEvent (event : CoordinatorEvent)
  | setAllRegionsRegistered (allRegistered : Bool)
  | setPreparingForShutdown (preparing : Bool)
  | markGracefulShutdown (region : RegionId)
  | unmarkGracefulShutdown (region : RegionId)
  | markRegionTerminating (region : RegionId)
  | unmarkRegionTerminating (region : RegionId)
  | markRegionUnavailable (region : RegionId)
  | unmarkRegionUnavailable (region : RegionId)
  | gracefulShutdownReq (region : RegionId)
  | requestShardHome (requester : RegionId) (shard : ShardId)
  /-- `path` is the path of a region that can be watched. -/
  | registerLocalRegion (region : RegionId) (path : Option String)
  /-- `target` tells whether the registration comes with a route. -/
  | registerRemoteRegion (region : RegionId) (target : Bool)
  | remoteGracefulShutdownReq (region : RegionId)
  | regionStopped (region : RegionId)
  | remoteRegionStopped (region : RegionId)
  | requestRemoteShardHome (requester : RegionId) (shard : ShardId)
  | planRebalance
  | completeRebalance (shard : ShardId) (ok : Bool)
  | handoffWorkerDone (worker : ℕ) (shard : ShardId) (ok : Bool)
  | hostShardObserved (shard : ShardId)
  | remoteHostShardObserved (region : RegionId) (shard : ShardId)
  /-- `worker` is the worker whose command is answered; the wire form does not have it. -/
  | remoteBeginHandOffAck (worker : ℕ) (region : RegionId) (shard : ShardId)
  | remoteShardStopped (worker : ℕ) (region : RegionId) (shard : ShardId)
  | rebalanceTick
  /-- The loaded shards, or none when loading has failed. -/
  | rememberStoreLoadResult (result : Option (Finset ShardId))
  | rememberStoreUpdateResult (ok : Bool)
  | startRebalanceTimer (interval : ℕ)
  | stopRebalanceTimer
  | terminate
  | getState
  | terminated (path : String)
  deriving DecidableEq

inductive CoordinatorEffect (M : Type)
  | spawnWorker (worker : ℕ) (state : HandoffWorker M)
  | tellWorker (worker : ℕ) (message : HandoffWorkerMsg M)
  | hostShard (region : RegionId) (route : HandoffRoute) (shard : ShardId)
  | shardHome (requester : RegionId) (shard : ShardId)
      (result : Except ShardingError GetShardHomePlan)
  | remoteShardHome (requester : RegionId) (shard : ShardId) (region : RegionId)
  | registered (region : RegionId) (ok : Bool)
  | registerAck (region : RegionId)
  | addShard (shard : ShardId)
  | watchRegion (path : String)
  | unstash (messages : List ShardCoordinatorMsg)
  | startTimer (interval : ℕ)
  | cancelTimer
  | stopSelf

structure CoordinatorHandoff (M : Type) where
  stopMessage : M
  handoffTimeout : ℕ
  transport : FinMap RegionId HandoffRoute
  activeWorkers : FinMap ShardId ℕ
  nextWorker : ℕ

structure ShardCoordinator (M : Type) where
  runtime : CoordinatorRuntime
  strategy : ShardAllocationStrategy
  rebalanceInterval : Option ℕ
  rememberStore : Bool
  waitingForRememberStoreLoad : Bool
  stashed : List ShardCoordinatorMsg
  handoff : Option (CoordinatorHandoff M)
  regionWatchByPath : FinMap String RegionId

/-- What a turn of the coordinator finds outside. -/
structure CoordinatorEnv where
  /-- Regions whose route rejects messages. -/
  rejecting : Finset RegionId
  stoppedWorkers : Finset ℕ
  workersUnspawnable : Bool
  storeRejects : Bool
  unserializable : Bool
  unwatchable : Finset String

inductive CoordinatorFailure
  | sharding (e : ShardingError)
  | rejected
  | unspawnable
  | unserializable
  | unwatchable (path : String)
  | deathPact (path : String)
  deriving DecidableEq

abbrev CoordinatorTurn (M : Type) := Turn (ShardCoordinator M) (CoordinatorEffect M) CoordinatorFailure

namespace ShardCoordinator

open Turn

variable {M : Type}

def withRuntime {α : Type} (f : CoordinatorRuntime → CoordinatorRuntime × α) : CoordinatorTurn M α :=
  updateGet fun c => ({ c with runtime := (f c.runtime).1 }, (f c.runtime).2)

def changeRuntime (f : CoordinatorRuntime → CoordinatorRuntime) : CoordinatorTurn M Unit :=
  update fun c => { c with runtime := f c.runtime }

def orFail {α : Type} : Except ShardingError α → CoordinatorTurn M α
  | .ok a => pure a
  | .error e => fail (.sharding e)

variable (env : CoordinatorEnv)

/-! ## Workers -/

/-- Starts a worker unless one is active for the shard. -/
def spawnWorker (plan : ShardRebalancePlan) : CoordinatorTurn M Unit := do
  let c ← state
  match c.handoff with
  | none => pure ()
  | some handoff =>
    if plan.shard ∈ handoff.activeWorkers then pure ()
    else do
      check (!env.workersUnspawnable) .unspawnable
      send (.spawnWorker handoff.nextWorker
        (.new plan handoff.stopMessage handoff.handoffTimeout handoff.transport))
      update fun c => { c with handoff := some { handoff with
        activeWorkers := handoff.activeWorkers.insert plan.shard handoff.nextWorker
        nextWorker := handoff.nextWorker + 1 } }

def spawnHandoffWorkers (result : Except ShardingError RebalancePlan) : CoordinatorTurn M Unit :=
  match result with
  | .ok (.started shards) => shards.forM (spawnWorker env)
  | _ => pure ()

def spawnShutdownWorkers (plan : RegionShutdownPlan) : CoordinatorTurn M Unit :=
  match plan with
  | .started _ shards => shards.forM (spawnWorker env)
  | _ => pure ()

def tellWorker (worker : ℕ) (message : HandoffWorkerMsg M) : CoordinatorTurn M Unit := do
  check (decide (worker ∉ env.stoppedWorkers)) .rejected
  send (.tellWorker worker message)

/-- Routes an answer to the worker of a shard, if there is one. -/
def forwardToWorker (shard : ShardId) (message : HandoffWorkerMsg M) : CoordinatorTurn M Unit := do
  let c ← state
  match c.handoff.bind (·.activeWorkers.lookup shard) with
  | some worker => tellWorker env worker message
  | none => pure ()

def activeWorkerIds (handoff : CoordinatorHandoff M) : List ℕ :=
  (ordered handoff.activeWorkers.keys).filterMap handoff.activeWorkers.lookup

def forwardRegionTerminated (region : RegionId) : CoordinatorTurn M Unit := do
  let c ← state
  match c.handoff with
  | some handoff =>
    (activeWorkerIds handoff).forM fun worker => tellWorker env worker (.regionTerminated region)
  | none => pure ()

def updateHandoff (f : CoordinatorHandoff M → CoordinatorHandoff M) : CoordinatorTurn M Unit :=
  update fun c => { c with handoff := c.handoff.map f }

def registerRegionTarget (region : RegionId) (route : HandoffRoute) : CoordinatorTurn M Unit :=
  updateHandoff fun h => { h with transport := h.transport.insert region route }

def removeRegionTarget (region : RegionId) : CoordinatorTurn M Unit :=
  updateHandoff fun h => { h with transport := h.transport.erase region }

def removeWorker (shard : ShardId) : CoordinatorTurn M Unit :=
  updateHandoff fun h => { h with activeWorkers := h.activeWorkers.erase shard }

/-! ## Homes -/

def persistAllocatedShard (plan : GetShardHomePlan) : CoordinatorTurn M Unit := do
  let c ← state
  match plan with
  | .allocated shard _ =>
    if c.rememberStore then do
      check (!env.storeRejects) .rejected
      send (.addShard shard)
    else pure ()
  | _ => pure ()

/-- Tells the region of an allocated shard to host it; a region that is not reached is tolerated. -/
def dispatchHostShard (plan : GetShardHomePlan) : CoordinatorTurn M Unit := do
  let c ← state
  match plan, c.handoff with
  | .allocated shard region, some handoff =>
    if region ∈ env.rejecting then pure ()
    else match handoff.transport.lookup region with
      | some route => send (.hostShard region route shard)
      | none => pure ()
  | _, _ => pure ()

def settlePlan (plan : GetShardHomePlan) : CoordinatorTurn M Unit := do
  persistAllocatedShard env plan
  dispatchHostShard env plan

/-- Decides about a home, stores an allocation and has it hosted. -/
def requestHome (requester : RegionId) (shard : ShardId) :
    CoordinatorTurn M (Except ShardingError GetShardHomePlan) := do
  let c ← state
  let result ← withRuntime (·.requestShardHome c.strategy requester shard)
  match result with
  | .ok plan => settlePlan env plan
  | .error _ => pure ()
  pure result

def allocateRememberedShardHomes : CoordinatorTurn M Unit := do
  let c ← state
  let result ← withRuntime (·.allocateRememberedShardHomes c.strategy "coordinator")
  let plans ← orFail result
  plans.forM (settlePlan env)

/-- An acknowledgement for another node: a failed send is tolerated. -/
def tolerateRemoteReplySend (effect : CoordinatorEffect M) : CoordinatorTurn M Unit := do
  check (!env.unserializable) .unserializable
  send effect

def requestRemoteShardHome (requester : RegionId) (shard : ShardId) : CoordinatorTurn M Unit := do
  let result ← requestHome env requester shard
  let plan ← orFail result
  match plan with
  | .reply shard region | .allocated shard region =>
    tolerateRemoteReplySend env (.remoteShardHome requester shard region)
  | _ => pure ()

/-! ## Regions -/

def registerRegion (region : RegionId) : CoordinatorTurn M (Except ShardingError Unit) := do
  let c ← state
  if region ∈ c.runtime.state.allocations.regions then pure (.ok ())
  else withRuntime (·.applyEvent (.shardRegionRegistered region))

def watchLocalRegion (region : RegionId) (path : Option String) : CoordinatorTurn M Unit := do
  let c ← state
  match path with
  | none => pure ()
  | some path =>
    if c.regionWatchByPath.lookup path = some region then pure ()
    else do
      check (decide (path ∉ env.unwatchable)) (.unwatchable path)
      send (.watchRegion path)
      update fun c => { c with regionWatchByPath := c.regionWatchByPath.insert path region }

def registerLocalRegion (region : RegionId) (path : Option String) : CoordinatorTurn M Unit := do
  watchLocalRegion env region path
  match ← registerRegion region with
  | .error _ => send (.registered region false)
  | .ok _ => do
    registerRegionTarget region .actor
    allocateRememberedShardHomes env
    send (.registered region true)

def registerRemoteRegion (region : RegionId) (target : Bool) : CoordinatorTurn M Unit := do
  let result ← registerRegion region
  orFail result
  if target then registerRegionTarget region .wire else pure ()
  tolerateRemoteReplySend env (.registerAck region)
  allocateRememberedShardHomes env

def applyRegionStopped (region : RegionId) : CoordinatorTurn M Unit := do
  changeRuntime fun rt => { rt with
    gracefulShutdownRegions := rt.gracefulShutdownRegions.erase region
    terminatingRegions := rt.terminatingRegions.erase region
    unavailableRegions := rt.unavailableRegions.erase region }
  forwardRegionTerminated env region
  removeRegionTarget region
  let c ← state
  if region ∈ c.runtime.state.allocations.regions then do
    let result ← withRuntime (·.applyEvent (.shardRegionTerminated region))
    orFail result
    allocateRememberedShardHomes env
  else pure ()

def shutDownRegion (region : RegionId) : CoordinatorTurn M Unit := do
  let plan ← withRuntime (·.planRegionShutdown region)
  spawnShutdownWorkers env plan

def rebalance : CoordinatorTurn M Unit := do
  let c ← state
  let result ← withRuntime (·.planRebalance c.strategy)
  spawnHandoffWorkers env result

/-! ## Completed handoffs -/

def retryHome (shard : ShardId) (requester : RegionId) : CoordinatorTurn M Unit := do
  let result ← requestHome env requester shard
  let _ ← orFail result
  pure ()

def reallocateCompletedRebalance (completion : RebalanceCompletionPlan) : CoordinatorTurn M Unit :=
  match completion with
  | .deallocated shard pendingRequesters =>
    (if pendingRequesters = [] then ["coordinator"] else pendingRequesters).forM (retryHome env shard)
  | .cleared shard pendingRequesters | .timedOut shard pendingRequesters =>
    pendingRequesters.forM (retryHome env shard)

def applyHandoffWorkerDone (shard : ShardId) (ok : Bool) : CoordinatorTurn M Unit := do
  removeWorker shard
  let result ← withRuntime (·.completeRebalance shard ok)
  let completion ← orFail result
  reallocateCompletedRebalance env completion

/-! ## The turn -/

def applyRememberStoreLoad (result : Option (Finset ShardId)) : CoordinatorTurn M Unit :=
  match result with
  | none => send .stopSelf
  | some shards => do
    update fun c => { c with
      runtime := { c.runtime with state := c.runtime.state.mergeRememberedShards shards }
      waitingForRememberStoreLoad := false }
    allocateRememberedShardHomes env

def startTimer (c : ShardCoordinator M) : CoordinatorTurn M Unit :=
  match c.rebalanceInterval with
  | some interval => send (.startTimer interval)
  | none => pure ()

def receiveInitialized : ShardCoordinatorMsg → CoordinatorTurn M Unit
  | .applyEvent event => do
    let _ ← withRuntime (·.applyEvent event)
    pure ()
  | .setAllRegionsRegistered allRegistered =>
    changeRuntime fun rt => { rt with allRegionsRegistered := allRegistered }
  | .setPreparingForShutdown preparing => do
    changeRuntime fun rt => { rt with preparingForShutdown := preparing }
    let c ← state
    if preparing then send .cancelTimer else startTimer c
  | .markGracefulShutdown region => changeRuntime fun rt =>
    { rt with gracefulShutdownRegions := insert region rt.gracefulShutdownRegions }
  | .unmarkGracefulShutdown region => changeRuntime fun rt =>
    { rt with gracefulShutdownRegions := rt.gracefulShutdownRegions.erase region }
  | .markRegionTerminating region => changeRuntime fun rt =>
    { rt with terminatingRegions := insert region rt.terminatingRegions }
  | .unmarkRegionTerminating region => changeRuntime fun rt =>
    { rt with terminatingRegions := rt.terminatingRegions.erase region }
  | .markRegionUnavailable region => changeRuntime fun rt =>
    { rt with unavailableRegions := insert region rt.unavailableRegions }
  | .unmarkRegionUnavailable region => changeRuntime fun rt =>
    { rt with unavailableRegions := rt.unavailableRegions.erase region }
  | .gracefulShutdownReq region | .remoteGracefulShutdownReq region => shutDownRegion env region
  | .requestShardHome requester shard => do
    let result ← requestHome env requester shard
    send (.shardHome requester shard result)
  | .registerLocalRegion region path => registerLocalRegion env region path
  | .registerRemoteRegion region target => registerRemoteRegion env region target
  | .regionStopped region | .remoteRegionStopped region => applyRegionStopped env region
  | .requestRemoteShardHome requester shard => requestRemoteShardHome env requester shard
  | .planRebalance | .rebalanceTick => rebalance env
  | .completeRebalance shard ok => do
    let _ ← withRuntime (·.completeRebalance shard ok)
    pure ()
  | .handoffWorkerDone _ shard ok => applyHandoffWorkerDone env shard ok
  | .hostShardObserved _ | .remoteHostShardObserved _ _ | .getState => pure ()
  | .remoteBeginHandOffAck _ region shard =>
    forwardToWorker env shard (.beginHandOffAck region (.ack shard shard))
  | .remoteShardStopped _ region shard =>
    forwardToWorker env shard (.remoteShardStopped region shard)
  | .rememberStoreLoadResult result => applyRememberStoreLoad env result
  | .rememberStoreUpdateResult ok => if ok then pure () else send .stopSelf
  | .startRebalanceTimer interval => do
    update fun c => { c with rebalanceInterval := some interval }
    send (.startTimer interval)
  | .stopRebalanceTimer => do
    update fun c => { c with rebalanceInterval := none }
    send .cancelTimer
  | .terminate => send .stopSelf
  | .terminated path => do
    let c ← state
    match c.regionWatchByPath.lookup path with
    | some region => do
      update fun c => { c with regionWatchByPath := c.regionWatchByPath.erase path }
      applyRegionStopped env region
    | none => fail (.deathPact path)

def receiveLoading : ShardCoordinatorMsg → CoordinatorTurn M Unit
  | .terminate => send .stopSelf
  | .rememberStoreLoadResult result => do
    applyRememberStoreLoad env result
    let stashed ← updateGet fun c => ({ c with stashed := [] }, c.stashed)
    send (.unstash stashed)
  -- signals are not stashed
  | .terminated path => receiveInitialized env (.terminated path)
  | other => update fun c => { c with stashed := c.stashed ++ [other] }

def receive (message : ShardCoordinatorMsg) : CoordinatorTurn M Unit := do
  let c ← state
  if c.waitingForRememberStoreLoad then receiveLoading env message
  else receiveInitialized env message

end ShardCoordinator

end Kairo.Sharding
