import Kairo.Sharding.RegionRun

/-!
# Turns that route envelopes and host shards

Several conditions on a region have the same shape: envelopes may leave the region at any time, and a
shard may be started only where something is known about it.  `Hosting` has such a condition, what it
asks before and while a shard is started, and what the operations of the runtime do to it; every turn
that routes envelopes or hosts a shard keeps the condition.
-/

namespace Kairo.Sharding

open Kairo.Lib Turn ShardRegionActor

variable {M Ref : Type}

/-! ## What the runtime lists -/

namespace ShardRegionRuntime

variable {rt rt' : ShardRegionRuntime M} {s : ShardId}

structure SameLists (rt rt' : ShardRegionRuntime M) : Prop where
  self : rt'.selfRegion = rt.selfRegion
  handing : rt'.handingOffShards = rt.handingOffShards
  hosted : rt'.localShards = rt.localShards

lemma sameLists_bufferMessage {message : ShardingEnvelope M}
    (h : rt.bufferMessage s message = some rt') : SameLists rt rt' := by
  rw [bufferMessage] at h
  split at h
  · cases h
  · cases h
    exact ⟨rfl, rfl, rfl⟩

lemma sameLists_route (rt : ShardRegionRuntime M) (s : ShardId) (message : ShardingEnvelope M) :
    SameLists rt (rt.route s message).1 := by
  unfold route
  split
  · exact ⟨rfl, rfl, rfl⟩
  · split
    · split
      · split
        · exact ⟨rfl, rfl, rfl⟩
        · split
          · rename_i h
            exact sameLists_bufferMessage h
          · exact ⟨rfl, rfl, rfl⟩
      · exact ⟨rfl, rfl, rfl⟩
    · split
      · rename_i h
        exact sameLists_bufferMessage h
      · exact ⟨rfl, rfl, rfl⟩

end ShardRegionRuntime

open ShardRegionRuntime

def HostShardPlan.starts : HostShardPlan M → Option ShardId
  | .startLocalShard s => some s
  | _ => none

def ShardHomePlan.starts : ShardHomePlan M → Option ShardId
  | .startLocalShard s => some s
  | _ => none

def homeStarts : Except ShardingError (ShardHomePlan M) → Option ShardId
  | .ok plan => plan.starts
  | .error _ => none

namespace ShardRegionRuntime

variable {rt rt' : ShardRegionRuntime M} {s : ShardId}

lemma hostShard_spec (rt : ShardRegionRuntime M) (s : ShardId) :
    SameLists rt (rt.hostShard s).1 ∧ (∀ t ∈ (rt.hostShard s).2.starts, t = s) ∧
    ((rt.hostShard s).2 = .alreadyStarted s s (rt.buffer s) ∧
        (rt.hostShard s).1.shardBuffers = rt.shardBuffers.erase s ∨
      ((rt.hostShard s).2 = .startLocalShard s ∨ (rt.hostShard s).2 = .ignoredGracefulShutdown s) ∧
        (rt.hostShard s).1.shardBuffers = rt.shardBuffers) := by
  unfold hostShard
  split
  · exact ⟨⟨rfl, rfl, rfl⟩, nofun, .inr ⟨.inr rfl, rfl⟩⟩
  · dsimp only
    split
    · exact ⟨⟨by simp [drainBuffer], by simp [drainBuffer], by simp [drainBuffer]⟩, nofun,
        .inl (by simp [drainBuffer, buffer])⟩
    · exact ⟨⟨by simp, by simp, by simp⟩, fun t ht => (Option.some.inj ht).symm,
        .inr ⟨.inl rfl, by simp⟩⟩

lemma recordShardHome_spec {region : RegionId} {plan : ShardHomePlan M}
    (h : rt.recordShardHome s region = .ok (rt', plan)) :
    SameLists rt rt' ∧ (∀ t ∈ plan.starts, t = s ∧ region = rt.selfRegion) ∧
    ((plan = .deliverLocal s (rt.buffer s) ∨ plan = .forward s region (rt.buffer s)) ∧
        rt'.shardBuffers = rt.shardBuffers.erase s ∨
      plan = .startLocalShard s ∧ s ∉ rt.localShards ∧ rt'.shardBuffers = rt.shardBuffers) := by
  unfold recordShardHome at h
  split at h
  · cases h
  · split at h
    · cases h
    · dsimp only at h
      split at h
      · rename_i hself
        rw [(rt.assignShard_frame _ _).2.2.2] at hself
        split at h <;> cases h
        · exact ⟨⟨by simp [drainBuffer], by simp [drainBuffer], by simp [drainBuffer]⟩, nofun,
            .inl (by simp [drainBuffer, buffer])⟩
        · rename_i hlocal
          rw [(rt.assignShard_frame _ _).1] at hlocal
          exact ⟨⟨by simp, by simp, by simp⟩, fun t ht => ⟨(Option.some.inj ht).symm, hself⟩,
            .inr ⟨rfl, hlocal, by simp⟩⟩
      · cases h
        exact ⟨⟨by simp [drainBuffer], by simp [drainBuffer], by simp [drainBuffer]⟩, nofun,
          .inl (by simp [drainBuffer, buffer])⟩

lemma lists_markShardStarted (rt : ShardRegionRuntime M) (s : ShardId) :
    (rt.markShardStarted s).1.selfRegion = rt.selfRegion ∧
      (rt.markShardStarted s).1.handingOffShards = rt.handingOffShards ∧
      (rt.markShardStarted s).1.localShards = insert s rt.localShards := by
  simp [markShardStarted, drainBuffer]

lemma lists_markShardStopped (rt : ShardRegionRuntime M) (s : ShardId) :
    (rt.markShardStopped s).selfRegion = rt.selfRegion ∧
      (rt.markShardStopped s).handingOffShards = rt.handingOffShards.erase s ∧
      (rt.markShardStopped s).localShards = rt.localShards.erase s := by
  simp [markShardStopped]

lemma lists_handoff (rt : ShardRegionRuntime M) (s : ShardId) :
    (rt.handoff s).1.selfRegion = rt.selfRegion ∧ (rt.handoff s).1.localShards = rt.localShards ∧
      (s ∈ rt.localShards ∧ (∃ dropped, (rt.handoff s).2 = .forwardToLocalShard s dropped ∧
          (rt.handoff s).1.handingOffShards = insert s rt.handingOffShards) ∨
        s ∉ rt.localShards ∧ ∃ dropped, (rt.handoff s).2 = .replyShardStopped s s dropped ∧
          (rt.handoff s).1.handingOffShards = rt.handingOffShards) := by
  unfold handoff
  dsimp only
  split
  · rename_i hs
    exact ⟨by simp, by simp, .inl ⟨by simpa using hs, _, rfl, by simp⟩⟩
  · rename_i hs
    exact ⟨by simp, by simp, .inr ⟨by simpa using hs, _, rfl, by simp⟩⟩

end ShardRegionRuntime

/-! ## Hosting conditions -/

/-- Conditions on a region and on what a turn of it has sent. -/
abbrev RegionCond (M Ref : Type) := ShardRegionActor M Ref → List (RegionEffect M Ref) → Prop

section

variable {P : RegionCond M Ref} {O : ShardId → List (RegionEffect M Ref) → Prop}
  {F : RegionFailure → RegionCond M Ref} (hP : ∀ {a ws} {rt : ShardRegionRuntime M}, P a ws →
    SameLists a.runtime rt → P { a with runtime := rt } ws)

include hP

lemma hostsShard (s : ShardId) :
    Triple (fun a ws => P a ws ∧ ∀ t ∈ some s, O t ws)
      (withRuntime (·.hostShard s) : RegionTurn M Ref _)
      (fun plan a ws => P a ws ∧ ∀ t ∈ plan.starts, O t ws) F := by
  refine .updateGet fun a ws h => ?_
  obtain ⟨hs, hp, -⟩ := hostShard_spec a.runtime s
  refine ⟨hP h.1 hs, fun t ht => ?_⟩
  obtain rfl := hp t ht
  exact h.2 t rfl

lemma recordsHome {selfRegion : RegionId}
    (hself : ∀ {a ws}, P a ws → a.runtime.selfRegion = selfRegion) (s : ShardId) (region : RegionId) :
    Triple (fun a ws => P a ws ∧ (region = selfRegion → O s ws))
      (recordHome s region : RegionTurn M Ref _)
      (fun r a ws => P a ws ∧ ∀ t ∈ homeStarts r, O t ws) F := by
  refine .updateGet fun a ws h => ?_
  cases hr : a.runtime.recordShardHome s region with
  | error e => exact ⟨h.1, fun t ht => by cases ht⟩
  | ok x =>
    obtain ⟨rt', plan⟩ := x
    obtain ⟨hs, hp, -⟩ := recordShardHome_spec hr
    refine ⟨hP h.1 hs, fun t ht => ?_⟩
    obtain ⟨rfl, hregion⟩ := hp t ht
    exact h.2 (hregion.trans (hself h.1))

end

/-- A condition `holds` with what it asks where shards are started. -/
structure Hosting (M Ref : Type) where
  holds : RegionCond M Ref
  /-- Before the shard that a plan starts is started. -/
  opens : Option ShardId → RegionCond M Ref
  /-- With a shard that is spawned and not marked as started yet. -/
  spawned : ShardId → RegionCond M Ref
  /-- Before the home of a shard is recorded. -/
  homes : ShardId → RegionId → RegionCond M Ref
  plain : Plain AnyFailure holds
  plain_opens : ∀ starts, Plain AnyFailure (opens starts)
  of_opens : ∀ {starts a ws}, opens starts a ws → holds a ws
  deliver : ∀ {a ws s message replyTo}, holds a ws → holds a (ws ++ [.deliver s message replyTo])
  forward : ∀ {a ws region s message routeReplyTo replyTo}, holds a ws →
    holds a (ws ++ [.forward region s message routeReplyTo replyTo])
  /-- The replies remembered for buffered envelopes are not part of the condition. -/
  requests : ∀ {a ws} homeRequests, holds a ws → holds { a with homeRequests } ws
  requests_opens : ∀ {starts a ws} homeRequests, opens starts a ws →
    opens starts { a with homeRequests } ws
  route : ∀ {a ws} s message, holds a ws →
    holds { a with runtime := (a.runtime.route s message).1 } ws
  host : ∀ s, Triple (opens (some s)) (withRuntime (·.hostShard s) : RegionTurn M Ref _)
    (fun plan => opens plan.starts) (fun e a ws => AnyFailure e ∧ holds a ws)
  spawn : ∀ env s, Triple (opens (some s)) (spawnLocalShard env s : RegionTurn M Ref Unit)
    (fun _ => spawned s) (fun e a ws => AnyFailure e ∧ holds a ws)
  mark : ∀ s, Triple (spawned s) (withRuntime (·.markShardStarted s) : RegionTurn M Ref _)
    (fun _ => holds) (fun e a ws => AnyFailure e ∧ holds a ws)
  record : ∀ s region, Triple (homes s region) (recordHome s region : RegionTurn M Ref _)
    (fun r => opens (homeStarts r)) (fun e a ws => AnyFailure e ∧ holds a ws)

namespace Hosting

variable (c : Hosting M Ref) (env : RegionEnv)

abbrev Failed (e : RegionFailure) (a : ShardRegionActor M Ref) (effects : List (RegionEffect M Ref)) :
    Prop :=
  AnyFailure e ∧ c.holds a effects

/-! ### Envelopes -/

lemma keeps_deliver (s : ShardId) (message : ShardingEnvelope M) (replyTo : Ref) :
    Keeps AnyFailure c.holds (tellShard env s (.deliver s message replyTo)) :=
  .bind (.check trivial) fun _ => .send fun _ _ h => c.deliver h

lemma keeps_replayBuffered (s : ShardId) (buffered : List (ShardingEnvelope M)) (replyTo : Ref) :
    Keeps AnyFailure c.holds (replayBufferedToLocalShard env s buffered replyTo) :=
  .read fun _ => .bind (.check trivial) fun _ =>
    .bind (.forM fun message _ => c.keeps_deliver env s message replyTo) fun _ => .pure _

lemma keeps_replayWithReplies (s : ShardId) (buffered : List (ShardingEnvelope M))
    (replies : List Ref) : Keeps AnyFailure c.holds
      (replayBufferedToLocalShardWithReplies env s buffered replies) :=
  .read fun _ => .bind (.check trivial) fun _ => .bind (.check trivial) fun _ =>
    .bind (.forM fun x _ => c.keeps_deliver env s x.1 x.2) fun _ => .pure _

lemma keeps_drainHomeRequests (s : ShardId) :
    Keeps AnyFailure c.holds (drainHomeRequests s : RegionTurn M Ref _) :=
  .updateGet fun _ _ h => c.requests _ h

lemma keeps_replayFromHostPlan (plan : HostShardPlan M) : Keeps AnyFailure c.holds
    (replayBufferedFromHostPlan env plan : RegionTurn M Ref _) := by
  cases plan with
  | alreadyStarted s started buffered =>
    exact .bind (c.keeps_drainHomeRequests s) fun _ =>
      .bind (c.keeps_replayWithReplies env s buffered _) fun _ => .pure _
  | startLocalShard _ | ignoredGracefulShutdown _ => exact .pure _

lemma keeps_forwardBuffered (s : ShardId) (region : RegionId) (buffered : List (ShardingEnvelope M))
    (replies : List Ref) : Keeps AnyFailure c.holds
      (forwardBufferedToRegion env s region buffered replies) := by
  refine .read fun a => ?_
  split
  · exact .pure _
  · refine .bind (.check trivial) fun _ => ?_
    split
    · exact .bind (.forM fun _ _ => .send fun _ _ h => c.forward h) fun _ => .pure _
    · exact .pure _

lemma keeps_dispatchRoute (plan : RegionRoutePlan M) (routeReplyTo deliveryReplyTo : Ref) :
    Keeps AnyFailure c.holds (dispatchLocalRoutePlan env plan routeReplyTo deliveryReplyTo) := by
  refine .read fun a => ?_
  cases plan with
  | deliverLocal s message =>
    dsimp only
    split
    · exact .bind (c.keeps_deliver env s message deliveryReplyTo) fun _ => keeps_sendPlain c.plain rfl
    · exact keeps_sendPlain c.plain rfl
  | forward s region message =>
    dsimp only
    split
    · exact keeps_sendPlain c.plain rfl
    · split
      · exact .send fun _ _ h => c.forward h
      · exact keeps_sendPlain c.plain rfl
  | buffered s request | dropped s reason message => exact keeps_sendPlain c.plain rfl

lemma keeps_route (s : ShardId) (message : ShardingEnvelope M) : Keeps AnyFailure c.holds
    (withRuntime (·.route s message) : RegionTurn M Ref _) :=
  .updateGet fun _ _ h => c.route s message h

lemma keeps_routeToLocalShard (s : ShardId) (message : ShardingEnvelope M)
    (routeReplyTo deliveryReplyTo : Ref) : Keeps AnyFailure c.holds
      (routeToLocalShard env s message routeReplyTo deliveryReplyTo) := by
  refine .bind (c.keeps_route s message) fun plan => ?_
  have hsent := fun plan => c.keeps_dispatchRoute env plan routeReplyTo deliveryReplyTo
  cases plan with
  | buffered s request =>
    refine .bind (.update fun _ _ h => c.requests _ h) fun _ => .bind (hsent _) fun _ => ?_
    cases request with
    | none => exact .pure _
    | some s => exact keeps_requestShardHomeFromCoordinator c.plain s
  | deliverLocal s message | forward s region message | dropped s reason message =>
    exact .bind (hsent _) fun _ => .pure _

/-! ### Starts -/

lemma startsLocalShard (s : ShardId) :
    Triple (c.opens (some s)) (startLocalShard env s : RegionTurn M Ref _) (fun _ => c.holds)
      c.Failed := by
  refine .read fun a => ?_
  split
  · exact .pure fun _ _ h => c.of_opens h
  · exact .bind (c.spawn env s) fun _ => .bind (c.mark s) fun _ => .pure fun _ _ h => h

lemma startsFromHostPlan (plan : HostShardPlan M) :
    Triple (c.opens plan.starts) (maybeStartLocalShardFromHostPlan env plan : RegionTurn M Ref _)
      (fun _ => c.holds) c.Failed := by
  cases plan with
  | startLocalShard s =>
    refine .bind (c.startsLocalShard env s) fun started => ?_
    cases started <;> exact .pure fun _ _ h => h
  | alreadyStarted _ _ _ | ignoredGracefulShutdown _ => exact .pure fun _ _ h => c.of_opens h

variable (plan : ShardHomePlan M)

lemma startsFromHomePlan :
    Triple (c.opens plan.starts) (maybeStartLocalShardFromHomePlan env plan : RegionTurn M Ref _)
      (fun _ => c.holds) c.Failed := by
  cases plan with
  | startLocalShard s =>
    refine .bind (c.startsLocalShard env s) fun started => ?_
    cases started <;> exact .pure fun _ _ h => h
  | deliverLocal _ _ | forward _ _ _ => exact .pure fun _ _ h => c.of_opens h

lemma hostsShardTurn (s : ShardId) :
    Triple (c.opens (some s)) (hostShardTurn env s : RegionTurn M Ref _) (fun _ => c.holds) c.Failed :=
  .bind (c.host s) fun plan => .bind (c.startsFromHostPlan env plan) fun plan =>
    c.keeps_replayFromHostPlan env plan

lemma hosts (s : ShardId) (replyTo : Ref) :
    Triple (c.opens (some s)) (receive env (.hostShard s replyTo)) (fun _ => c.holds) c.Failed := by
  refine .bind (c.hostsShardTurn env s) fun plan => ?_
  cases plan with
  | ignoredGracefulShutdown _ =>
    exact Keeps.bind (keeps_tellRegisteredCoordinator c.plain env _) fun _ => keeps_sendPlain c.plain rfl
  | startLocalShard _ | alreadyStarted _ _ _ => exact keeps_sendPlain c.plain rfl

lemma hostsAndReplays (s : ShardId) (replyTo deliveryReplyTo : Ref) :
    Triple (c.opens (some s)) (receive env (.hostShardAndReplayBuffered s replyTo deliveryReplyTo))
      (fun _ => c.holds) c.Failed := by
  refine .bind (Q := fun _ => c.holds) ?_ fun plan => ?_
  · refine .read fun a => ?_
    split
    · exact .pure fun _ _ h => c.of_opens h
    · refine .bind (c.host s) fun plan => ?_
      cases plan with
      | ignoredGracefulShutdown _ => exact .pure fun _ _ h => c.of_opens h
      | alreadyStarted t started buffered =>
        exact (Keeps.bind (c.keeps_replayBuffered env t buffered deliveryReplyTo) fun _ =>
          .pure _).pre fun _ _ h => c.of_opens h
      | startLocalShard t =>
        refine .bind (c.spawn env t) fun _ => .bind (c.mark t) fun started => ?_
        exact Keeps.bind (c.keeps_replayBuffered env t started.buffered deliveryReplyTo) fun _ =>
          .pure _
  · cases plan with
    | ignoredGracefulShutdown _ =>
      exact Keeps.bind (keeps_tellRegisteredCoordinator c.plain env _) fun _ =>
        keeps_sendPlain c.plain rfl
    | replayed _ _ _ | missingLocalShardSpawner _ => exact keeps_sendPlain c.plain rfl

lemma hostsRemote (s : ShardId) (reply : Ref) :
    Triple (c.opens (some s)) (applyRemoteHostShard env s reply) (fun _ => c.holds) c.Failed := by
  refine .bind (c.host s) fun plan => ?_
  cases plan with
  | ignoredGracefulShutdown _ =>
    exact (keeps_tellRegisteredCoordinator c.plain env _).pre fun _ _ h => c.of_opens h
  | startLocalShard t | alreadyStarted t started buffered =>
    refine .bind (c.startsFromHostPlan env _) fun plan =>
      .bind (c.keeps_replayFromHostPlan env plan) fun plan => ?_
    split
    · exact keeps_tolerateRemoteControlReplySend c.plain env reply nofun
    · exact Keeps.pure _

/-! ### Shard homes -/

lemma watches :
    Triple (c.opens plan.starts) (watchRegionFromHomePlan env plan : RegionTurn M Ref Unit)
      (fun _ => c.opens plan.starts) c.Failed :=
  (keeps_watchRegionFromHomePlan (c.plain_opens plan.starts) env plan).weaken (fun _ _ h => h)
    (fun _ _ _ h => h) fun _ _ _ h => ⟨trivial, c.of_opens h.2⟩

lemma recordsShardHome (s : ShardId) (region : RegionId) :
    Triple (c.homes s region) (recordShardHome env s region : RegionTurn M Ref _) (fun _ => c.holds)
      c.Failed := by
  refine .bind (c.record s region) fun r => ?_
  cases r with
  | error e => exact .pure fun _ _ h => c.of_opens h
  | ok plan =>
    exact .bind (c.watches env plan) fun _ => .bind (c.startsFromHomePlan env plan) fun _ =>
      Keeps.pure _

lemma appliesShardHomePlan (replies : List Ref) :
    Triple (c.opens plan.starts) (applyCoordinatorShardHomePlan env plan replies) (fun _ => c.holds)
      c.Failed := by
  refine .bind (c.startsFromHomePlan env plan) fun plan => ?_
  cases plan with
  | deliverLocal t buffered =>
    exact Keeps.bind (c.keeps_replayWithReplies env t buffered replies) fun _ => .pure _
  | forward t region buffered =>
    exact Keeps.bind (c.keeps_forwardBuffered env t region buffered replies) fun _ => .pure _
  | startLocalShard t => exact Keeps.pure _

lemma appliesRemoteShardHome (s : ShardId) (region : RegionId) :
    Triple (c.homes s region) (applyRemoteCoordinatorShardHome env s region : RegionTurn M Ref _)
      (fun _ => c.holds) c.Failed := by
  refine .bind (c.record s region) fun r => ?_
  cases r with
  | error e => exact .pure fun _ _ h => c.of_opens h
  | ok plan =>
    refine .bind (c.watches env plan) fun _ => .bind
      (.updateGet fun _ _ h => c.requests_opens _ h) fun replies =>
        c.appliesShardHomePlan env plan replies

end Hosting

end Kairo.Sharding
