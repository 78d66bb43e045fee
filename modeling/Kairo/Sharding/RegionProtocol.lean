import Kairo.Sharding.ShardRuntime

/-!
# Messages and effects of a shard region

`ShardRegionMsg` are the messages of the region actor, with the signal of a terminated actor among
them, and `RegionEffect` is what a turn of the actor does outside of it.  `Ref` are the references that
messages carry for replies.
-/

namespace Kairo.Sharding

open Kairo.Lib

/-! ## Messages -/

inductive AskResult
  | ok (answer : Bool)
  | timeout (timeout : ℕ)
  deriving DecidableEq

inductive GetShardHomeIgnoreReason
  | notAllRegionsRegistered
  | noActiveRegions
  | homeRegionTerminating (region : RegionId)
  | allocatedRegionNoLongerActive (region : RegionId)
  deriving DecidableEq

inductive GetShardHomePlan
  | reply (shard : ShardId) (region : RegionId)
  | allocated (shard : ShardId) (region : RegionId)
  | deferred (shard : ShardId) (requester : RegionId)
  | ignored (shard : ShardId) (reason : GetShardHomeIgnoreReason)
  deriving DecidableEq

inductive RegionBufferedReplayPlan
  | replayed (shard started : ShardId) (replayed : ℕ)
  | missingLocalShardSpawner (shard : ShardId)
  | ignoredGracefulShutdown (shard : ShardId)
  deriving DecidableEq

inductive RegionLocalHandOffPlan
  | forwardedToLocalShard (shard : ShardId) (droppedBuffered : ℕ)
  | missingLocalShard (shard : ShardId) (droppedBuffered : ℕ)
  | replyShardStopped (shard stopped : ShardId) (droppedBuffered : ℕ)
  deriving DecidableEq

inductive RegionLocalHandOffCompletionFailure
  | missingLocalShard
  | stopperNotInProgress
  | stopperTimeout (timeout : ℕ)
  deriving DecidableEq

inductive RegionLocalHandOffCompletionPlan
  | completed (shard stopped : ShardId)
  | failed (shard : ShardId) (reason : RegionLocalHandOffCompletionFailure)
  deriving DecidableEq

structure RegionCoordinatorDiscoveryPlan where
  registrationChanged : Bool
  /-- The retry interval of a registration with a local coordinator. -/
  registration : Option ℕ
  remoteTarget : Option String
  remoteRetryInterval : Option ℕ

/-- The path of a watched actor: a shard child of this region, another child, or a foreign actor. -/
inductive WatchedPath
  | shard (shard : ShardId) (uid : ℕ)
  | other (path : String)
  deriving DecidableEq

inductive ShardRegionMsg (M Ref : Type*)
  /-- The remote regions with the paths of those that can be watched. -/
  | setClusterTargets (remoteRegions : FinMap RegionId (Option String))
  | route (shard : ShardId) (message : ShardingEnvelope M) (replyTo : Ref)
  | routeToLocalShard (shard : ShardId) (message : ShardingEnvelope M)
      (routeReplyTo deliveryReplyTo : Ref)
  | hostShard (shard : ShardId) (replyTo : Ref)
  | hostShardAndReplayBuffered (shard : ShardId) (replyTo deliveryReplyTo : Ref)
  | recordShardHome (shard : ShardId) (region : RegionId) (replyTo : Ref)
  | markShardStarted (shard : ShardId) (replyTo : Ref)
  | beginHandOff (shard : ShardId) (replyTo : Ref)
  | handOff (shard : ShardId) (replyTo : Ref)
  | remoteHostShard (shard : ShardId) (reply : Ref)
  | remoteBeginHandOff (shard : ShardId) (reply : Ref)
  | remoteHandOff (shard : ShardId) (reply : Ref)
  | remoteLocalShardHandOffObserved (plan : ShardHandOffPlan M) (timeout : ℕ) (reply : Ref)
  | remoteLocalShardHandOffStopperResult (shard : ShardId) (result : AskResult) (reply : Ref)
  | gracefulShutdown (replyTo : Option Ref)
  | handOffToLocalShard (shard : ShardId) (stopMessage : M) (regionReplyTo shardReplyTo : Ref)
  | completeLocalShardHandOff (shard : ShardId) (timeout : ℕ) (replyTo : Ref)
  | localShardHandOffStopperResult (shard : ShardId) (result : AskResult) (replyTo : Ref)
  | coordinatorRegistrationResult (ok : Bool)
  | remoteCoordinatorRegistrationAck (coordinator : String)
  | retryCoordinatorRegistration
  | retryPendingShardHomes
  | coordinatorShardHomeResult (requestedShard : ShardId)
      (result : Except ShardingError GetShardHomePlan)
  | remoteCoordinatorShardHome (shard : ShardId) (region : RegionId)
  | coordinatorDiscovery (plan : RegionCoordinatorDiscoveryPlan)
  | forwardedBufferedRouteResult
  | markShardStopped (shard : ShardId) (replyTo : Option Ref)
  | markRegionStopped (region : RegionId) (replyTo : Option Ref)
  | restartLocalShard (shard : ShardId) (generation : ℕ)
  | setGracefulShutdown (inProgress : Bool)
  | setPreparingForShutdown (preparing : Bool)
  | getState (replyTo : Ref)
  | getLocalShard (shard : ShardId) (replyTo : Ref)
  | terminated (actor : WatchedPath)

/-! ## Effects -/

inductive RegionRouteDelivery (M : Type*)
  | sent (shard : ShardId) (region : RegionId)
  | missingTarget (shard : ShardId) (region : RegionId) (message : ShardingEnvelope M)
  | sendFailed (shard : ShardId) (region : RegionId) (message : ShardingEnvelope M)

inductive RegionLocalRoutePlan (M : Type*)
  | deliveredToLocalShard (shard : ShardId)
  | missingLocalShard (shard : ShardId) (message : ShardingEnvelope M)
  | forward (shard : ShardId) (region : RegionId) (message : ShardingEnvelope M)
  | forwardedToRegion (delivery : RegionRouteDelivery M)
  | buffered (shard : ShardId) (request : Option ShardId)
  | dropped (shard : Option ShardId) (reason : RegionDropReason) (message : ShardingEnvelope M)

inductive RegionRegistrationStatus
  | disabled
  | registering
  | registered
  deriving DecidableEq

structure ShardRegionSnapshot where
  selfRegion : RegionId
  localShards : Finset ShardId
  startingShards : Finset ShardId
  handingOffShards : Finset ShardId
  totalBuffered : ℕ
  registrationStatus : RegionRegistrationStatus

inductive RegionReply (M : Type*)
  | route (plan : RegionRoutePlan M)
  | localRoute (plan : RegionLocalRoutePlan M)
  | hostShard (plan : HostShardPlan M)
  | replay (plan : RegionBufferedReplayPlan)
  | shardHome (plan : Except ShardingError (ShardHomePlan M))
  | shardStarted (plan : ShardStartedPlan M)
  | beginHandOff (plan : BeginHandOffPlan)
  | handOff (plan : HandOffPlan)
  | localHandOff (plan : RegionLocalHandOffPlan)
  | completion (plan : RegionLocalHandOffCompletionPlan)
  | snapshot (state : ShardRegionSnapshot)
  | localShard (uid : Option ℕ)

/-- Acknowledgements to a coordinator on another node. -/
inductive RegionRemoteReply
  | shardStarted (shard : ShardId)
  | beginHandOffAck (shard : ShardId)
  | shardStopped (shard : ShardId)
  deriving DecidableEq

inductive RegionToCoordinator
  | register
  | requestShardHome (shard : ShardId)
  | gracefulShutdownReq
  | regionStopped
  deriving DecidableEq

/-- Where the plan of a shard for a handoff goes: to a reference, or back to the region, which then
answers a coordinator on another node. -/
inductive HandOffReplyTo (Ref : Type*)
  | ref (replyTo : Ref)
  | observed (timeout : ℕ) (reply : Ref)

/-- What the region does with the answer of the entity stopper. -/
inductive StopperReplyTo (Ref : Type*)
  | completion (replyTo : Ref)
  | remote (reply : Ref)
  deriving DecidableEq

inductive RegionEffect (M Ref : Type*)
  | reply (to' : Ref) (reply : RegionReply M)
  | remoteReply (to' : Ref) (reply : RegionRemoteReply)
  /-- `remote` is the target on another node, or none for the local coordinator. -/
  | tellCoordinator (remote : Option String) (message : RegionToCoordinator)
  | deliver (shard : ShardId) (message : ShardingEnvelope M) (replyTo : Ref)
  | handOffShard (shard : ShardId) (stopMessage : M) (replyTo : HandOffReplyTo Ref)
  | askStopper (shard : ShardId) (timeout : ℕ) (replyTo : StopperReplyTo Ref)
  | spawnShard (shard : ShardId) (uid : ℕ)
  | stopShard (shard : ShardId) (uid : ℕ)
  /-- An envelope for another region; without `routeReplyTo` the result comes back to this one. -/
  | forward (region : RegionId) (shard : ShardId) (message : ShardingEnvelope M)
      (routeReplyTo : Option Ref) (deliveryReplyTo : Ref)
  | watchRegion (path : String)
  | scheduleRestart (backoff : ℕ) (shard : ShardId) (generation : ℕ)
  | scheduleRetryRegistration (interval : ℕ)
  | scheduleRetryShardHomes (interval : ℕ)
  | stopSelf

end Kairo.Sharding
