import Kairo.Sharding.EntityShard
import Kairo.Sharding.HandoffTurns
import Kairo.Sharding.RegionHandoff

/-!
# A coordinator with its handoff workers, regions and local shards

The messages in flight are a pool from which any one may be delivered next, so that every order of
delivery is a run.  Clients, timers, stores and operators are outside: their messages are injected
at any time.  The commands and answers of a handoff come only from the actors of the system.
-/

namespace Kairo.Sharding

open Kairo.Lib

/-- The references that messages carry for replies.  A region answers a worker through the coordinator
when the wire form of the control messages carries the answer. -/
inductive HandoffRef
  | worker (id : ℕ)
  | coordinator
  | outside
  deriving DecidableEq

inductive Packet (M : Type)
  | region (region : RegionId) (message : ShardRegionMsg M HandoffRef)
  | shard (region : RegionId) (shard : ShardId) (uid : ℕ) (message : ShardMsg M HandoffRef)
  | worker (id : ℕ) (message : HandoffWorkerMsg M)
  | coordinator (message : ShardCoordinatorMsg)

/-- A question of a region to the entity stopper of a shard that is neither answered nor timed out. -/
structure StopperAsk where
  region : RegionId
  shard : ShardId
  timeout : ℕ
  replyTo : StopperReplyTo HandoffRef
  deriving DecidableEq

structure ShardingSystem (M : Type) where
  coordinator : Option (ShardCoordinator M)
  /-- The workers that were spawned; one that has stopped stays, in the phase `done`. -/
  workers : FinMap ℕ (HandoffWorker M)
  regions : FinMap RegionId (ShardRegionActor M HandoffRef)
  /-- The shard actors of the regions, with their uids. -/
  shards : FinMap (RegionId × ShardId) (ℕ × EntityShard M HandoffRef)
  asks : List StopperAsk
  inFlight : List (Packet M)
  /-- The old owner and the result of the last worker of each shard that finished. -/
  finished : FinMap ShardId (RegionId × Bool)

/-- What a turn finds outside. -/
structure SystemEnv where
  region : RegionEnv
  shard : ShardEnv
  coordinator : CoordinatorEnv
  /-- Regions that reject the messages of workers. -/
  rejecting : Finset RegionId

inductive SystemAction (M : Type)
  | deliver (position : ℕ) (env : SystemEnv)
  | inject (packet : Packet M)
  | lose (position : ℕ)
  | askTimeout (position : ℕ)
  | startRegion (region : RegionId) (actor : ShardRegionActor M HandoffRef)
  | stopRegion (region : RegionId) (coordinatorRejects : Bool)
  | failShard (region : RegionId) (shard : ShardId)

/-! ## What is sent -/

section

variable {M : Type}

def workerPackets (id : ℕ) (w : HandoffWorker M) : WorkerEffect M → List (Packet M)
  | .beginHandOff region .actor => [.region region (.beginHandOff w.plan.shard (.worker id))]
  | .beginHandOff region .wire => [.region region (.remoteBeginHandOff w.plan.shard (.worker id))]
  | .handOff region .actor stopMessage =>
    [.region region (.handOffToLocalShard w.plan.shard stopMessage (.worker id) (.worker id))]
  | .handOff region .wire _ => [.region region (.remoteHandOff w.plan.shard (.worker id))]
  | .completeHandOff region timeout =>
    [.region region (.completeLocalShardHandOff w.plan.shard timeout (.worker id))]
  | .report shard ok => [.coordinator (.handoffWorkerDone id shard ok)]
  | _ => []

def coordinatorPath : String := "coordinator"

def coordinatorPackets : CoordinatorEffect M → List (Packet M)
  | .spawnWorker id _ => [.worker id .start]
  | .tellWorker id message => [.worker id message]
  | .hostShard region .actor shard => [.region region (.hostShard shard .coordinator)]
  | .hostShard region .wire shard => [.region region (.remoteHostShard shard .coordinator)]
  | .shardHome requester shard result =>
    [.region requester (.coordinatorShardHomeResult shard result)]
  | .remoteShardHome requester shard region =>
    [.region requester (.remoteCoordinatorShardHome shard region)]
  | .registered region ok => [.region region (.coordinatorRegistrationResult ok)]
  | .registerAck region => [.region region (.remoteCoordinatorRegistrationAck coordinatorPath)]
  | .unstash messages => messages.map .coordinator
  | _ => []

/-- A message to the coordinator of this node, or of another one. -/
def lifecyclePackets (region : RegionId) (remote : Bool) : RegionToCoordinator → List (Packet M)
  | .register => [.coordinator (if remote then .registerRemoteRegion region true
      else .registerLocalRegion region none)]
  | .requestShardHome shard => [.coordinator (if remote then .requestRemoteShardHome region shard
      else .requestShardHome region shard)]
  | .gracefulShutdownReq => [.coordinator (if remote then .remoteGracefulShutdownReq region
      else .gracefulShutdownReq region)]
  -- no turn sends it: see `stopNotices`
  | .regionStopped => []

/-- A message to the actor that a region has for a shard. -/
def toShard (region : RegionId) (a : ShardRegionActor M HandoffRef) (shard : ShardId)
    (message : ShardMsg M HandoffRef) : List (Packet M) :=
  match a.localShards.lookup shard with
  | some uid => [.shard region shard uid message]
  | none => []

/-- What a turn of a region sends; `a` is the region after the turn. -/
def regionPackets (region : RegionId) (a : ShardRegionActor M HandoffRef) :
    RegionEffect M HandoffRef → List (Packet M)
  | .reply (.worker id) (.beginHandOff plan) => [.worker id (.beginHandOffAck region plan)]
  | .reply (.worker id) (.localHandOff plan) => [.worker id (.localHandOffForwarded plan)]
  | .reply (.worker id) (.completion plan) => [.worker id (.localHandOffCompleted plan)]
  | .reply .coordinator (.hostShard (.alreadyStarted shard _ _)) =>
    [.coordinator (.hostShardObserved shard)]
  | .remoteReply (.worker id) (.beginHandOffAck shard) =>
    [.coordinator (.remoteBeginHandOffAck id region shard)]
  | .remoteReply (.worker id) (.shardStopped shard) =>
    [.coordinator (.remoteShardStopped id region shard)]
  | .remoteReply .coordinator (.shardStarted shard) =>
    [.coordinator (.remoteHostShardObserved region shard)]
  | .tellCoordinator remote message => lifecyclePackets region remote.isSome message
  | .deliver shard message replyTo => toShard region a shard (.deliver message replyTo)
  | .handOffShard shard stopMessage replyTo => toShard region a shard (.handOff stopMessage replyTo)
  | .askStopper shard _ replyTo => toShard region a shard (.handOffStopperTerminated replyTo)
  | .stopShard shard uid => [.region region (.terminated (.shard shard uid))]
  | .forward target shard message routeReplyTo deliveryReplyTo =>
    [.region target (.routeToLocalShard shard message (routeReplyTo.getD .outside) deliveryReplyTo)]
  | _ => []

def shardPackets (region : RegionId) : ShardEffect M HandoffRef → List (Packet M)
  | .planned (.ref (.worker id)) plan => [.worker id (.shardHandOffObserved plan)]
  | .planned (.observed timeout reply) plan =>
    [.region region (.remoteLocalShardHandOffObserved plan timeout reply)]
  | _ => []

def askResult (region : RegionId) (shard : ShardId) (result : AskResult) :
    StopperReplyTo HandoffRef → Packet M
  | .completion replyTo => .region region (.localShardHandOffStopperResult shard result replyTo)
  | .remote reply => .region region (.remoteLocalShardHandOffStopperResult shard result reply)

/-- The answers of a turn of a shard, to the asks that still wait. -/
def answerAsks (region : RegionId) (shard : ShardId) :
    List StopperAsk → List (ShardEffect M HandoffRef) → List StopperAsk × List (Packet M)
  | asks, [] => (asks, [])
  | asks, .answered replyTo answer :: effects =>
    match asks.find? fun ask => ask.region = region ∧ ask.shard = shard ∧ ask.replyTo = replyTo with
    | some ask =>
      let (asks, packets) := answerAsks region shard (asks.erase ask) effects
      (asks, askResult region shard (.ok answer) replyTo :: packets)
    | none => answerAsks region shard asks effects
  | asks, _ :: effects => answerAsks region shard asks effects

/-- The coordinator is told that a region has stopped: by the region when it is registered, and by the
signal when the coordinator watches it.  A local region has its name as its path. -/
def stopNotices (region : RegionId) (a : ShardRegionActor M HandoffRef)
    (coordinator : Option (ShardCoordinator M)) (coordinatorRejects : Bool) : List (Packet M) :=
  (if coordinatorRejects then []
    else match a.registeredCoordinator with
      | some none => [.coordinator (.regionStopped region)]
      | some (some _) => [.coordinator (.remoteRegionStopped region)]
      | none => []) ++
  match coordinator.bind (·.regionWatchByPath.lookup region) with
  | some _ => [.coordinator (.terminated region)]
  | none => []

end

/-! ## Outside -/

namespace Packet

variable {M : Type}

/-- Commands and answers of a handoff come from inside; the stop of a region is reported only when it
has stopped; and a local region registers with its own path. -/
def fromOutside : Packet M → Bool
  | .region _ (.beginHandOff ..) | .region _ (.remoteBeginHandOff ..) | .region _ (.handOff ..)
  | .region _ (.handOffToLocalShard ..) | .region _ (.remoteHandOff ..)
  | .region _ (.completeLocalShardHandOff ..) | .region _ (.localShardHandOffStopperResult ..)
  | .region _ (.remoteLocalShardHandOffObserved ..)
  | .region _ (.remoteLocalShardHandOffStopperResult ..) => false
  | .region .. => true
  | .shard _ _ _ (.handOff ..) | .shard _ _ _ (.handOffStopperTerminated ..) => false
  | .shard .. => true
  | .worker _ .timeout | .worker _ .getState => true
  | .worker .. => false
  | .coordinator (.handoffWorkerDone ..) | .coordinator (.remoteBeginHandOffAck ..)
  | .coordinator (.remoteShardStopped ..) | .coordinator (.regionStopped ..)
  | .coordinator (.remoteRegionStopped ..) | .coordinator (.terminated ..) => false
  | .coordinator (.registerLocalRegion self (some path)) => path = self
  | .coordinator _ => true

/-- Messages between nodes, which may be lost. -/
def onWire : Packet M → Bool
  | .region _ (.remoteHostShard ..) | .region _ (.remoteBeginHandOff ..)
  | .region _ (.remoteHandOff ..) | .region _ (.remoteCoordinatorShardHome ..)
  | .region _ (.remoteCoordinatorRegistrationAck ..) | .region _ (.routeToLocalShard ..) => true
  | .coordinator (.registerRemoteRegion ..) | .coordinator (.remoteGracefulShutdownReq ..)
  | .coordinator (.remoteRegionStopped ..) | .coordinator (.requestRemoteShardHome ..)
  | .coordinator (.remoteHostShardObserved ..) | .coordinator (.remoteBeginHandOffAck ..)
  | .coordinator (.remoteShardStopped ..) => true
  | _ => false

end Packet

namespace ShardingSystem

variable {M : Type} (σ : ShardingSystem M)

/-! ## Turns -/

def push (packets : List (Packet M)) : ShardingSystem M :=
  { σ with inFlight := σ.inFlight ++ packets }

/-- A region stops, with the actors of its shards. -/
def endRegion (region : RegionId) (coordinatorRejects : Bool) : ShardingSystem M :=
  match σ.regions.lookup region with
  | none => σ
  | some a => push { σ with
      regions := σ.regions.erase region
      shards := FinMap.retain (fun k => k.1 ≠ region) σ.shards
      asks := σ.asks.filter fun ask => ask.region ≠ region }
    (stopNotices region a σ.coordinator coordinatorRejects)

/-- A new shard actor; with a remember store it first loads the remembered entities. -/
def spawnedShard (spawner : Option LocalShardSpawner) (shard : ShardId) : EntityShard M HandoffRef :=
  match spawner with
  | none => .new shard 0
  | some s =>
    if s.failureBackoff.isSome then
      { EntityShard.new shard s.shardBufferCapacity with
        runtime := .newWithRememberEntities shard s.shardBufferCapacity
        loading := true
        rememberStore := true }
    else .new shard s.shardBufferCapacity

def regionShards (region : RegionId) (spawner : Option LocalShardSpawner)
    (shards : FinMap (RegionId × ShardId) (ℕ × EntityShard M HandoffRef)) :
    RegionEffect M HandoffRef → FinMap (RegionId × ShardId) (ℕ × EntityShard M HandoffRef)
  | .spawnShard shard uid => shards.insert (region, shard) (uid, spawnedShard spawner shard)
  | .stopShard shard uid =>
    if (shards.lookup (region, shard)).map (·.1) = some uid then shards.erase (region, shard) else
    shards
  | _ => shards

def newAsk (region : RegionId) : RegionEffect M HandoffRef → Option StopperAsk
  | .askStopper shard timeout replyTo => some ⟨region, shard, timeout, replyTo⟩
  | _ => none

def settleRegion (region : RegionId) (a : ShardRegionActor M HandoffRef)
    (effects : List (RegionEffect M HandoffRef)) : ShardingSystem M :=
  push { σ with
    regions := σ.regions.insert region a
    shards := effects.foldl (regionShards region a.localShardSpawner) σ.shards
    asks := σ.asks ++ effects.filterMap (newAsk region) }
    (effects.flatMap (regionPackets region a))

def regionStops : RegionEffect M HandoffRef → Bool
  | .stopSelf => true
  | _ => false

/-- A turn of a region; a failed turn and one that asks for it stop the region. -/
def regionTurn (env : RegionEnv) (region : RegionId) (message : ShardRegionMsg M HandoffRef) :
    ShardingSystem M :=
  match σ.regions.lookup region with
  | none => σ
  | some a =>
    match ShardRegionActor.receive env message (a, []) with
    | .ok _ (a, effects) =>
      if effects.any regionStops then (σ.settleRegion region a effects).endRegion region
        env.coordinatorRejects
      else σ.settleRegion region a effects
    | .error _ (a, effects) =>
      (σ.settleRegion region a effects).endRegion region env.coordinatorRejects

/-- The actor of a shard is gone, and the region that watches it is told. -/
def endShard (region : RegionId) (shard : ShardId) : ShardingSystem M :=
  match σ.shards.lookup (region, shard) with
  | none => σ
  | some (uid, _) => push { σ with shards := σ.shards.erase (region, shard) }
    [.region region (.terminated (.shard shard uid))]

def settleShard (region : RegionId) (shard : ShardId) (uid : ℕ) (a : EntityShard M HandoffRef)
    (effects : List (ShardEffect M HandoffRef)) : ShardingSystem M :=
  push { σ with
    shards := σ.shards.insert (region, shard) (uid, a)
    asks := (answerAsks (M := M) region shard σ.asks effects).1 }
    (effects.flatMap (shardPackets region) ++ (answerAsks region shard σ.asks effects).2)

def shardStops : ShardEffect M HandoffRef → Bool
  | .stopSelf => true
  | _ => false

def shardTurn (env : ShardEnv) (region : RegionId) (shard : ShardId) (uid : ℕ)
    (message : ShardMsg M HandoffRef) : ShardingSystem M :=
  match σ.shards.lookup (region, shard) with
  | none => σ
  | some (uid', a) =>
    if uid' ≠ uid then σ
    else match EntityShard.receive env message (a, []) with
      | .ok _ (a, effects) =>
        if effects.any shardStops then (σ.settleShard region shard uid a effects).endShard region shard
        else σ.settleShard region shard uid a effects
      | .error _ (a, effects) => (σ.settleShard region shard uid a effects).endShard region shard

def workerTurn (rejecting : Finset RegionId) (id : ℕ) (message : HandoffWorkerMsg M) :
    ShardingSystem M :=
  match σ.workers.lookup id with
  | none => σ
  | some w =>
    let (w', effects) := w.receive rejecting message
    push { σ with
      workers := σ.workers.insert id w'
      finished := match HandoffWorker.reported effects with
        | some ok => σ.finished.insert w.plan.shard (w.plan.fromRegion, ok)
        | none => σ.finished }
      (effects.flatMap (workerPackets id w))

def spawned : CoordinatorEffect M → Option (ℕ × HandoffWorker M)
  | .spawnWorker id w => some (id, w)
  | _ => none

def settleCoordinator (c : ShardCoordinator M) (effects : List (CoordinatorEffect M)) :
    ShardingSystem M :=
  push { σ with
    coordinator := some c
    workers := (effects.filterMap spawned).foldl (fun ws x => ws.insert x.1 x.2) σ.workers }
    (effects.flatMap coordinatorPackets)

/-- The coordinator stops, and its workers with it. -/
def endCoordinator : ShardingSystem M :=
  { σ with
    coordinator := none
    workers := FinMap.tabulate σ.workers.keys fun id =>
      (σ.workers.lookup id).map fun w => { w with phase := .done } }

def coordinatorStops : CoordinatorEffect M → Bool
  | .stopSelf => true
  | _ => false

/-- Whether the turn is the last one of the coordinator. -/
def coordinatorEnds (env : CoordinatorEnv) (message : ShardCoordinatorMsg) (c : ShardCoordinator M) :
    Bool :=
  match ShardCoordinator.receive env message (c, []) with
  | .ok _ (_, effects) => effects.any coordinatorStops
  | .error .. => true

def coordinatorTurn (env : CoordinatorEnv) (message : ShardCoordinatorMsg) : ShardingSystem M :=
  match σ.coordinator with
  | none => σ
  | some c =>
    let settled := match ShardCoordinator.receive env message (c, []) with
      | .ok _ (c, effects) => σ.settleCoordinator c effects
      | .error _ (c, effects) => σ.settleCoordinator c effects
    if coordinatorEnds env message c then settled.endCoordinator else settled

def handle (env : SystemEnv) : Packet M → ShardingSystem M
  | .region region message => σ.regionTurn env.region region message
  | .shard region shard uid message => σ.shardTurn env.shard region shard uid message
  | .worker id message => σ.workerTurn env.rejecting id message
  | .coordinator message => σ.coordinatorTurn env.coordinator message

/-! ## Runs -/

/-- A region starts with any capabilities and without shards. -/
def freshRegion (a : ShardRegionActor M HandoffRef) : Bool :=
  a.runtime.handingOffShards = ∅ ∧ a.runtime.localShards = ∅

def step : SystemAction M → Option (ShardingSystem M)
  | .deliver position env => σ.inFlight[position]?.map fun packet =>
    handle { σ with inFlight := σ.inFlight.eraseIdx position } env packet
  | .inject packet => if packet.fromOutside then some (σ.push [packet]) else none
  | .lose position => σ.inFlight[position]?.bind fun packet =>
    if packet.onWire then some { σ with inFlight := σ.inFlight.eraseIdx position } else none
  | .askTimeout position => σ.asks[position]?.map fun ask =>
    push { σ with asks := σ.asks.eraseIdx position }
      [askResult ask.region ask.shard (.timeout ask.timeout) ask.replyTo]
  | .startRegion region a =>
    if region ∉ σ.regions ∧ freshRegion a then some { σ with regions := σ.regions.insert region a }
    else none
  | .stopRegion region coordinatorRejects =>
    if region ∈ σ.regions then some (σ.endRegion region coordinatorRejects) else none
  | .failShard region shard =>
    if (region, shard) ∈ σ.shards then some (σ.endShard region shard) else none

/-- At the start there are a coordinator and regions of any capabilities, and nothing else. -/
def machine : Machine (ShardingSystem M) (SystemAction M) where
  init σ := σ.workers = ∅ ∧ σ.shards = ∅ ∧ σ.asks = [] ∧ σ.inFlight = [] ∧ σ.finished = ∅ ∧
    (∀ region ∈ σ.regions.keys, (σ.regions.lookup region).all freshRegion = true) ∧
    σ.coordinator.all (fun c => c.stashed = [] ∧ c.regionWatchByPath.keys = ∅) = true
  step := step

/-! ## The property -/

def Inactive (shard : ShardId) : Prop :=
  ∀ id w, σ.workers.lookup id = some w → w.plan.shard = shard → w.phase = .done

/-- No region lists the shard as handing off, so that a home of the shard is not rejected for it. -/
def NotHandingOff (shard : ShardId) : Prop :=
  ∀ region a, σ.regions.lookup region = some a → shard ∉ a.runtime.handingOffShards ∧
    ∀ home current, a.runtime.recordShardHome shard home ≠ .error
    (.shardHomeDuringHandOff shard current)

/-- The old owner of a shard whose last worker finished with ok does not list it. -/
def Released (shard : ShardId) : Prop :=
  ∀ region, σ.finished.lookup shard = some (region, true) →
    ∀ a, σ.regions.lookup region = some a → shard ∉ a.runtime.localShards

def NoResidue : Prop :=
  σ.inFlight = [] → ∀ shard, σ.Inactive shard → σ.NotHandingOff shard ∧ σ.Released shard

end ShardingSystem

end Kairo.Sharding
