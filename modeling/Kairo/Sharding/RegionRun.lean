import Kairo.Lib.Machine
import Kairo.Sharding.RegionActor

/-!
# Runs of a shard region

A region takes one message after the other; the log has the messages and, after each of them, what its
turn sent.  A failed turn stops the actor and ends the run.  Most of what a turn does concerns the
coordinator and leaves alone the buffers, the remembered replies, the local shards and their restarts;
`Plain` conditions are those that such turns keep.
-/

namespace Kairo.Sharding

open Kairo.Lib Turn

variable {M Ref : Type}

inductive RegionEvent (M Ref : Type)
  | received (message : ShardRegionMsg M Ref)
  | sent (effect : RegionEffect M Ref)

structure RegionRun (M Ref : Type) where
  actor : ShardRegionActor M Ref
  log : List (RegionEvent M Ref)
  failed : Option RegionFailure

namespace RegionRun

def step (r : RegionRun M Ref) (x : RegionEnv × ShardRegionMsg M Ref) : Option (RegionRun M Ref) :=
  if r.failed.isSome then none
  else match ShardRegionActor.receive x.1 x.2 (r.actor, []) with
    | .ok _ (actor, effects) =>
      some ⟨actor, r.log ++ [.received x.2] ++ effects.map .sent, none⟩
    | .error e (actor, effects) =>
      some ⟨actor, r.log ++ [.received x.2] ++ effects.map .sent, some e⟩

/-- A region starts with any capabilities, without shards, buffered envelopes and pending restarts. -/
def machine : Machine (RegionRun M Ref) (RegionEnv × ShardRegionMsg M Ref) where
  init r := r.log = [] ∧ r.failed = none ∧ r.actor.runtime.shardBuffers = ∅ ∧
    r.actor.homeRequests.deliveryRepliesByShard = ∅ ∧ r.actor.localShards = ∅ ∧
    r.actor.pendingLocalRestarts = ∅
  step := step

lemma exists_turn {r r' : RegionRun M Ref} {x : RegionEnv × ShardRegionMsg M Ref}
    (h : r.step x = some r') : r.failed = none ∧ ∃ effects,
      r'.log = r.log ++ [.received x.2] ++ effects.map .sent ∧
      (ShardRegionActor.receive x.1 x.2 (r.actor, []) = .ok () (r'.actor, effects) ∧
          r'.failed = none ∨
        ∃ e, ShardRegionActor.receive x.1 x.2 (r.actor, []) = .error e (r'.actor, effects) ∧
          r'.failed = some e) := by
  rw [step] at h
  split at h
  · cases h
  · rename_i hf
    refine ⟨Option.isNone_iff_eq_none.mp (by simpa using hf), ?_⟩
    split at h <;> rename_i ht <;> cases h
    · exact ⟨_, rfl, .inl ⟨ht, rfl⟩⟩
    · exact ⟨_, rfl, .inr ⟨_, ht, rfl⟩⟩

end RegionRun

/-! ## Plain conditions -/

/-- Neither a delivery, nor a start of a shard, nor a step or an answer of a handoff. -/
def RegionEffect.isPlain : RegionEffect M Ref → Bool
  | .reply _ (.handOff _) | .reply _ (.localHandOff _) | .reply _ (.completion _)
  | .remoteReply _ (.shardStopped _) | .handOffShard .. | .askStopper .. | .deliver ..
  | .spawnShard .. | .forward .. => false
  | _ => true

/-- Messages whose turns leave the shards of the region alone. -/
def ShardRegionMsg.isPlain : ShardRegionMsg M Ref → Bool
  | .setClusterTargets _ | .remoteBeginHandOff .. | .gracefulShutdown _
  | .coordinatorRegistrationResult _ | .remoteCoordinatorRegistrationAck _
  | .retryCoordinatorRegistration | .retryPendingShardHomes | .coordinatorDiscovery _
  | .forwardedBufferedRouteResult | .markRegionStopped .. | .setGracefulShutdown _
  | .setPreparingForShutdown _ | .getState _ | .getLocalShard .. => true
  | _ => false

structure SameShards (a b : ShardRegionActor M Ref) : Prop where
  shardBuffers : b.runtime.shardBuffers = a.runtime.shardBuffers
  runtimeShards : b.runtime.localShards = a.runtime.localShards
  selfRegion : b.runtime.selfRegion = a.runtime.selfRegion
  spawner : b.localShardSpawner = a.localShardSpawner
  localShards : b.localShards = a.localShards
  replies : b.homeRequests.deliveryRepliesByShard = a.homeRequests.deliveryRepliesByShard
  pending : b.pendingLocalRestarts = a.pendingLocalRestarts
  suppressed : b.suppressedLocalRestarts = a.suppressedLocalRestarts
  handingOff : b.runtime.handingOffShards = a.runtime.handingOffShards

/-- The replies remembered for a shard are not as many as its buffered envelopes. -/
def RegionFailure.isMismatch : RegionFailure → Bool
  | .replayMismatch .. | .forwardMismatch .. => true
  | _ => false

/-- A condition on what concerns shards, with failures that include all but mismatches. -/
structure Plain (F : RegionFailure → Prop)
    (I : ShardRegionActor M Ref → List (RegionEffect M Ref) → Prop) : Prop where
  fails : ∀ {e}, RegionFailure.isMismatch e = false → F e
  same : ∀ {a b ws}, SameShards a b → I a ws → I b ws
  send : ∀ {a ws e}, RegionEffect.isPlain e = true → I a ws → I a (ws ++ [e])

namespace ShardRegionActor

lemma sameShards_runtime {a : ShardRegionActor M Ref} {rt : ShardRegionRuntime M}
    (hb : rt.shardBuffers = a.runtime.shardBuffers) (hl : rt.localShards = a.runtime.localShards)
    (hs : rt.selfRegion = a.runtime.selfRegion)
    (hh : rt.handingOffShards = a.runtime.handingOffShards) : SameShards a { a with runtime := rt } :=
  ⟨hb, hl, hs, rfl, rfl, rfl, rfl, rfl, hh⟩

variable (a : ShardRegionActor M Ref)

lemma sameShards_markRegionStopped (region : RegionId) :
    SameShards a { a with runtime := (a.runtime.markRegionStopped region).1 } := by
  refine sameShards_runtime ?_ ?_ ?_ ?_ <;>
    (unfold ShardRegionRuntime.markRegionStopped; split <;> rfl)

lemma sameShards_beginHandoff (shard : ShardId) :
    SameShards a { a with runtime := (a.runtime.beginHandoff shard).1 } := by
  refine sameShards_runtime ?_ ?_ ?_ ?_ <;> (unfold ShardRegionRuntime.beginHandoff; split <;> simp)

variable {F : RegionFailure → Prop}
  {I : ShardRegionActor M Ref → List (RegionEffect M Ref) → Prop} (hI : Plain F I) (env : RegionEnv)
include hI

lemma keeps_sendPlain {e : RegionEffect M Ref} (he : e.isPlain = true) :
    Keeps F I (send e : RegionTurn M Ref Unit) :=
  .send fun _ _ h => hI.send he h

lemma keeps_updateSame {f : ShardRegionActor M Ref → ShardRegionActor M Ref}
    (hf : ∀ a, SameShards a (f a)) : Keeps F I (update f : RegionTurn M Ref Unit) :=
  .update fun a _ h => hI.same (hf a) h

lemma keeps_replyOptional (replyTo : Option Ref) : Keeps F I (replyOptional replyTo) := by
  refine .read fun a => ?_
  cases replyTo with
  | none => exact .pure _
  | some r => exact keeps_sendPlain hI rfl

lemma keeps_registerWithCoordinator :
    Keeps F I (registerWithCoordinator : RegionTurn M Ref Unit) := by
  refine .read fun a => ?_
  split
  · split
    · exact .pure _
    · exact .bind (keeps_sendPlain hI rfl) fun _ => keeps_sendPlain hI rfl
  · split
    · dsimp only
      split
      · refine .bind (keeps_sendPlain hI rfl) fun _ => ?_
        split
        · exact keeps_sendPlain hI rfl
        · exact .pure _
      · split
        · exact keeps_sendPlain hI rfl
        · exact .pure _
    · exact .pure _

lemma keeps_ensureShardHomeRetryTimer :
    Keeps F I (ensureShardHomeRetryTimer : RegionTurn M Ref Unit) := by
  refine .read fun a => ?_
  dsimp only
  split
  · split
    · exact .pure _
    · refine .bind (keeps_updateSame hI fun a => ?_) fun _ => keeps_sendPlain hI rfl
      exact ⟨rfl, rfl, rfl, rfl, rfl, rfl, rfl, rfl, rfl⟩
  · exact .pure _

lemma keeps_requestShardHomeFromCoordinator (shard : ShardId) :
    Keeps F I (requestShardHomeFromCoordinator shard : RegionTurn M Ref Unit) := by
  refine .read fun a => ?_
  split
  all_goals
    split
    · exact .bind (keeps_sendPlain hI rfl) fun _ => keeps_ensureShardHomeRetryTimer hI
    · exact .pure _

lemma keeps_requestPendingShardHomes :
    Keeps F I (requestPendingShardHomesFromCoordinator : RegionTurn M Ref Unit) :=
  .read fun _ => .forM fun shard _ => keeps_requestShardHomeFromCoordinator hI shard

lemma keeps_applyRegistrationResult (ok : Bool) :
    Keeps F I (applyRegistrationResult ok : RegionTurn M Ref Unit) := by
  refine .bind (keeps_updateSame hI fun a => ⟨rfl, rfl, rfl, rfl, rfl, rfl, rfl, rfl, rfl⟩) fun _ => ?_
  cases ok with
  | true => exact keeps_requestPendingShardHomes hI
  | false => exact keeps_registerWithCoordinator hI

lemma keeps_applyRemoteRegistrationAck (coordinator : String) :
    Keeps F I (applyRemoteRegistrationAck coordinator : RegionTurn M Ref Unit) := by
  refine .read fun a => ?_
  split
  · refine .bind (keeps_updateSame hI fun a => ?_) fun _ => keeps_requestPendingShardHomes hI
    exact ⟨rfl, rfl, rfl, rfl, rfl, rfl, rfl, rfl, rfl⟩
  · exact .pure _

lemma keeps_applyCoordinatorDiscoveryPlan (plan : RegionCoordinatorDiscoveryPlan) :
    Keeps F I (applyCoordinatorDiscoveryPlan plan : RegionTurn M Ref Unit) := by
  unfold applyCoordinatorDiscoveryPlan
  split
  · refine .bind (keeps_updateSame hI fun a => ?_) fun _ => keeps_registerWithCoordinator hI
    exact ⟨rfl, rfl, rfl, rfl, rfl, rfl, rfl, rfl, rfl⟩
  · exact keeps_registerWithCoordinator hI

lemma keeps_tellRegisteredCoordinator (message : RegionToCoordinator) :
    Keeps F I (tellRegisteredCoordinator env message : RegionTurn M Ref Unit) := by
  refine .read fun a => ?_
  split
  · exact .bind (.check (hI.fails rfl)) fun _ => keeps_sendPlain hI rfl
  · exact .pure _

lemma keeps_tryCompleteGracefulShutdown :
    Keeps F I (tryCompleteGracefulShutdown : RegionTurn M Ref Unit) := by
  refine .read fun a => ?_
  split
  · exact keeps_sendPlain hI rfl
  · exact .pure _

lemma keeps_applyGracefulShutdown :
    Keeps F I (applyGracefulShutdown env : RegionTurn M Ref Unit) := by
  refine .read fun a => ?_
  split
  · exact keeps_sendPlain hI rfl
  · refine .bind (keeps_updateSame hI fun a => ?_) fun _ =>
      .bind (keeps_tellRegisteredCoordinator hI env _) fun _ => keeps_tryCompleteGracefulShutdown hI
    exact sameShards_runtime rfl rfl rfl rfl

lemma keeps_tolerateRemoteControlReplySend (reply : Ref) {ack : RegionRemoteReply}
    (hack : ∀ shard, ack ≠ .shardStopped shard) :
    Keeps F I (tolerateRemoteControlReplySend env reply ack : RegionTurn M Ref Unit) := by
  refine .bind (.check (hI.fails rfl)) fun _ => keeps_sendPlain hI ?_
  cases ack with
  | shardStopped shard => exact absurd rfl (hack shard)
  | shardStarted _ | beginHandOffAck _ => rfl

omit hI in
lemma keeps_completeLocalShardHandoff {shard : ShardId} {timeout : ℕ} {replyTo : Ref}
    (hask : ∀ {a ws}, I a ws → I a (ws ++ [.askStopper shard timeout (.completion replyTo)]))
    (hfail : ∀ {a ws}, I a ws →
      I a (ws ++ [.reply replyTo (.completion (.failed shard .missingLocalShard))])) :
    Keeps F I (completeLocalShardHandoff shard timeout replyTo : RegionTurn M Ref Unit) := by
  refine .read fun a => ?_
  split
  · exact .send fun _ _ h => hask h
  · exact .send fun _ _ h => hfail h

lemma keeps_watchRegionFromHomePlan (plan : ShardHomePlan M) :
    Keeps F I (watchRegionFromHomePlan env plan : RegionTurn M Ref Unit) := by
  refine .read fun a => ?_
  split
  · split
    · exact .pure _
    · split
      · exact .pure _
      · split
        · exact .pure _
        · refine .bind (.check (hI.fails rfl)) fun _ => .bind (keeps_sendPlain hI rfl) fun _ =>
            keeps_updateSame hI fun a => ?_
          exact ⟨rfl, rfl, rfl, rfl, rfl, rfl, rfl, rfl, rfl⟩
  · exact .pure _

lemma keeps_applyRemoteBeginHandoff (shard : ShardId) (reply : Ref) :
    Keeps F I (applyRemoteBeginHandoff env shard reply : RegionTurn M Ref Unit) := by
  refine .bind (.updateGet fun a _ h => hI.same (sameShards_beginHandoff a shard) h) fun plan => ?_
  cases plan with
  | ack _ _ => exact keeps_tolerateRemoteControlReplySend hI env _ nofun
  | ignoredPreparingForShutdown _ => exact .pure _

lemma keeps_markRegionStopped (region : RegionId) :
    Keeps F I (markRegionStopped region : RegionTurn M Ref Unit) := by
  refine keeps_updateSame hI fun a => ?_
  exact { sameShards_markRegionStopped a region with }

lemma keeps_applyWatchedRegionTerminated (path : String) (region : RegionId) :
    Keeps F I (applyWatchedRegionTerminated path region : RegionTurn M Ref Unit) := by
  refine keeps_updateSame hI fun a => ?_
  exact { sameShards_markRegionStopped a region with }

lemma keeps_signalTerminated
    (hstop : ∀ shard, Keeps F I (markLocalShardStopped shard : RegionTurn M Ref Unit))
    (actor : WatchedPath) : Keeps F I (signalTerminated actor : RegionTurn M Ref Unit) := by
  refine .read fun a => ?_
  split
  · exact .bind (hstop _) fun _ => keeps_tryCompleteGracefulShutdown hI
  · split
    · exact .pure _
    · split
      · exact keeps_applyWatchedRegionTerminated hI _ _
      · exact .fail (hI.fails rfl)

/-- Turns that concern the coordinator or the regions, or only ask, keep every plain condition. -/
lemma keeps_receivePlain {message : ShardRegionMsg M Ref} (hm : message.isPlain = true) :
    Keeps F I (receive env message) := by
  cases message with
  | setClusterTargets remoteRegions =>
    refine .read fun a => .bind (.check (hI.fails rfl)) fun _ => keeps_updateSame hI fun a => ?_
    exact ⟨rfl, rfl, rfl, rfl, rfl, rfl, rfl, rfl, rfl⟩
  | remoteBeginHandOff shard reply => exact keeps_applyRemoteBeginHandoff hI env shard reply
  | gracefulShutdown replyTo =>
    exact .bind (keeps_applyGracefulShutdown hI env) fun _ => keeps_replyOptional hI replyTo
  | coordinatorRegistrationResult ok => exact keeps_applyRegistrationResult hI ok
  | remoteCoordinatorRegistrationAck coordinator =>
    exact keeps_applyRemoteRegistrationAck hI coordinator
  | retryCoordinatorRegistration => exact keeps_registerWithCoordinator hI
  | retryPendingShardHomes =>
    refine .bind (keeps_updateSame hI fun a => ?_) fun _ => keeps_requestPendingShardHomes hI
    exact ⟨rfl, rfl, rfl, rfl, rfl, rfl, rfl, rfl, rfl⟩
  | coordinatorDiscovery plan =>
    refine .read fun a => ?_
    split
    · exact keeps_applyCoordinatorDiscoveryPlan hI plan
    · exact .pure _
  | forwardedBufferedRouteResult => exact .pure _
  | markRegionStopped region replyTo =>
    exact .bind (keeps_markRegionStopped hI region) fun _ => keeps_replyOptional hI replyTo
  | setGracefulShutdown inProgress | setPreparingForShutdown preparing =>
    rw [receive]
    exact keeps_updateSame hI fun a => sameShards_runtime rfl rfl rfl rfl
  | getState replyTo | getLocalShard shard replyTo =>
    exact .read fun _ => keeps_sendPlain hI rfl
  | _ => cases hm

end ShardRegionActor

end Kairo.Sharding
