import Kairo.Sharding.HandingOff

/-!
# Buffered envelopes and their delivery replies

The runtime of a region buffers envelopes, and the actor remembers a delivery reply for each of them;
the two queues of a shard are kept in step by the handlers.  `Lists log q` says that the queues of each
shard are related by `q`; a handler that empties one of the queues leaves them related through what it
has taken.
-/

namespace Kairo.Sharding

open Kairo.Lib Turn ShardRegionActor RegionHomeRequests FinMap List Machine.Reach ShardRegionRuntime

variable {M Ref : Type}

/-- The envelope was routed with the reply. -/
def Routed (log : List (RegionEvent M Ref)) (shard : ShardId) (message : ShardingEnvelope M)
    (deliveryReplyTo : Ref) : Prop :=
  ∃ routeReplyTo, .received (.routeToLocalShard shard message routeReplyTo deliveryReplyTo) ∈ log

/-- As many replies as envelopes, each routed with its envelope. -/
def Matched (log : List (RegionEvent M Ref)) (shard : ShardId)
    (messages : List (ShardingEnvelope M)) (replies : List Ref) : Prop :=
  List.Forall₂ (Routed log shard) messages replies

/-- An envelope leaves the region with the reply it was routed with. -/
def Attached (log : List (RegionEvent M Ref)) : RegionEffect M Ref → Prop
  | .deliver shard message replyTo | .forward _ shard message _ replyTo =>
    Routed log shard message replyTo
  | _ => True

abbrev QueueRel (M Ref : Type) := ShardId → List (ShardingEnvelope M) → List Ref → Prop

variable (log : List (RegionEvent M Ref))

/-- The queues of each shard are related, and what was sent is attached. -/
structure Lists (q : QueueRel M Ref) (a : ShardRegionActor M Ref)
    (effects : List (RegionEffect M Ref)) : Prop where
  queues : ∀ t, q t (a.runtime.buffer t) (a.homeRequests.replies t)
  attached : ∀ e ∈ effects, Attached log e

abbrev Aligned : ShardRegionActor M Ref → List (RegionEffect M Ref) → Prop := Lists log (Matched log)

/-- The buffer of the shard was emptied, and had these envelopes. -/
def taken (q : QueueRel M Ref) (s : ShardId) (messages : List (ShardingEnvelope M)) : QueueRel M Ref :=
  fun t b rs => (t ≠ s → q t b rs) ∧ (t = s → b = [] ∧ q s messages rs)

/-- The replies of the shard were drained, and were these. -/
def pulled (q : QueueRel M Ref) (s : ShardId) (replies : List Ref) : QueueRel M Ref :=
  fun t b rs => (t ≠ s → q t b rs) ∧ (t = s → rs = [] ∧ q s b replies)

/-- Aligned, with nothing buffered for one shard. -/
def unbuffered (s : ShardId) : QueueRel M Ref := fun t b rs => Matched log t b rs ∧ (t = s → b = [])

abbrev NoMismatch (e : RegionFailure) : Prop := e.isMismatch = false

def Ended (e : RegionFailure) (_ : ShardRegionActor M Ref) (effects : List (RegionEffect M Ref)) :
    Prop :=
  NoMismatch e ∧ ∀ x ∈ effects, Attached log x

variable {log} {q q' : QueueRel M Ref} {s : ShardId} {a b : ShardRegionActor M Ref}
  {message : ShardingEnvelope M} {rt' : ShardRegionRuntime M} {plan : ShardHomePlan M}
  {e : RegionEffect M Ref} {r : Ref}
  {effects : List (RegionEffect M Ref)} {messages : List (ShardingEnvelope M)} {replies : List Ref}

/-! ## Relations of queues -/

lemma Lists.mono (h : Lists log q a effects) (hq : ∀ t b rs, q t b rs → q' t b rs) :
    Lists log q' a effects :=
  ⟨fun t => hq t _ _ (h.queues t), h.attached⟩

lemma Lists.of_same (h : Lists log q a effects)
    (hb : b.runtime.shardBuffers = a.runtime.shardBuffers)
    (hr : b.homeRequests.deliveryRepliesByShard = a.homeRequests.deliveryRepliesByShard) :
    Lists log q b effects := by
  refine ⟨fun t => ?_, h.attached⟩
  rw [buffer, replies, hb, hr]
  exact h.queues t

lemma Lists.send (h : Lists log q a effects) (he : Attached log e) :
    Lists log q a (effects ++ [e]) :=
  ⟨h.queues, forall_mem_append.mpr ⟨h.attached, forall_mem_singleton.mpr he⟩⟩

lemma attached_of_isPlain (he : e.isPlain = true) : Attached log e := by
  unfold Attached
  split <;> trivial

lemma plain_lists : Plain NoMismatch (Lists log q) where
  fails := id
  same hs h := h.of_same hs.shardBuffers hs.replies
  send he h := h.send (attached_of_isPlain he)

lemma Lists.taken_pulled (h : Lists log (pulled (taken q s messages) s replies) a effects) :
    Lists log (taken (pulled q s replies) s messages) a effects := by
  refine h.mono fun t b rs ht => ⟨fun hne => ⟨fun _ => (ht.1 hne).1 hne, fun hc => (hne hc).elim⟩,
    fun he => ?_⟩
  obtain ⟨hrs, hb⟩ := ht.2 he
  exact ⟨(hb.2 rfl).1, fun hc => (hc rfl).elim, fun _ => ⟨hrs, (hb.2 rfl).2⟩⟩

lemma Lists.of_pulled_taken
    (h : Lists log (taken (pulled (Matched log) s replies) s messages) a effects) :
    Aligned log a effects ∧ Matched log s messages replies := by
  obtain ⟨hempty, _, hrs⟩ := (h.queues s).2 rfl
  obtain ⟨hrs, hm⟩ := hrs rfl
  refine ⟨⟨fun t => ?_, h.attached⟩, hm⟩
  by_cases ht : t = s
  · subst ht
    rw [hempty, hrs]
    exact .nil
  · exact ((h.queues t).1 ht).1 ht

lemma Lists.of_taken_unbuffered (h : Lists log (taken (unbuffered log s) s messages) a effects) :
    Aligned log a effects ∧ messages = [] := by
  obtain ⟨hempty, hm, hnil⟩ := (h.queues s).2 rfl
  obtain rfl := hnil rfl
  refine ⟨⟨fun t => ?_, h.attached⟩, rfl⟩
  by_cases ht : t = s
  · subst ht
    rw [hempty]
    exact hm
  · exact ((h.queues t).1 ht).1

lemma Lists.of_unbuffered (h : Lists log (unbuffered log s) a effects) : Aligned log a effects :=
  h.mono fun _ _ _ h => h.1

lemma Lists.of_pulled_empty (h : Lists log (pulled (Matched log) s replies) a effects)
    (hb : a.runtime.buffer s = []) : Aligned log a effects := by
  refine ⟨fun t => ?_, h.attached⟩
  by_cases ht : t = s
  · subst ht
    rw [hb, ((h.queues t).2 rfl).1]
    exact .nil
  · exact (h.queues t).1 ht

/-! ## Buffers of the runtime -/

/-- What draining the buffer of a shard does to the buffers. -/
def Drains (rt rt' : ShardRegionRuntime M) (s : ShardId) : Prop :=
  ∀ t, rt'.buffer t = if t = s then [] else rt.buffer t

lemma drains_of_erase {rt : ShardRegionRuntime M}
    (h : rt'.shardBuffers = rt.shardBuffers.erase s) : Drains rt rt' s := by
  intro t
  rw [buffer, h, lookup_erase]
  split <;> rfl

lemma Lists.drain (h : Lists log q a effects)
    (hd : rt'.shardBuffers = a.runtime.shardBuffers.erase s) :
    Lists log (taken q s (a.runtime.buffer s)) { a with runtime := rt' } effects := by
  refine ⟨fun t => ⟨fun ht => ?_, fun ht => ?_⟩, h.attached⟩
  · rw [drains_of_erase hd t, if_neg ht]
    exact h.queues t
  · subst ht
    rw [drains_of_erase hd t, if_pos rfl]
    exact ⟨rfl, h.queues t⟩

lemma Lists.sameBuffers (h : Lists log q a effects)
    (hb : rt'.shardBuffers = a.runtime.shardBuffers) :
    Lists log q { a with runtime := rt' } effects :=
  h.of_same hb rfl

/-- The queues after a plan to host a shard. -/
def AfterHost (log : List (RegionEvent M Ref)) (q : QueueRel M Ref) (s : ShardId) :
    HostShardPlan M → ShardRegionActor M Ref → List (RegionEffect M Ref) → Prop
  | .alreadyStarted t _ buffered => fun a ws => t = s ∧ Lists log (taken q s buffered) a ws
  | .startLocalShard t => fun a ws => t = s ∧ Lists log q a ws
  | .ignoredGracefulShutdown _ => Lists log q

def AfterHome (log : List (RegionEvent M Ref)) (q : QueueRel M Ref) (s : ShardId) :
    ShardHomePlan M → ShardRegionActor M Ref → List (RegionEffect M Ref) → Prop
  | .deliverLocal t buffered | .forward t _ buffered => fun a ws =>
    t = s ∧ Lists log (taken q s buffered) a ws
  | .startLocalShard t => fun a ws => t = s ∧ Lists log q a ws

lemma Lists.hostShard (h : Lists log q a effects) (s : ShardId) :
    AfterHost log q s (a.runtime.hostShard s).2 { a with runtime := (a.runtime.hostShard s).1 }
      effects := by
  obtain ⟨-, -, ⟨hp, hb⟩ | ⟨hp | hp, hb⟩⟩ := hostShard_spec a.runtime s <;> rw [hp]
  · exact ⟨rfl, h.drain hb⟩
  · exact ⟨rfl, h.sameBuffers hb⟩
  · exact h.sameBuffers hb

lemma Lists.recordShardHome (h : Lists log q a effects) {region : RegionId}
    (hr : a.runtime.recordShardHome s region = .ok (rt', plan)) :
    AfterHome log q s plan { a with runtime := rt' } effects := by
  obtain ⟨-, -, ⟨rfl | rfl, hb⟩ | ⟨rfl, -, hb⟩⟩ := recordShardHome_spec hr
  · exact ⟨rfl, h.drain hb⟩
  · exact ⟨rfl, h.drain hb⟩
  · exact ⟨rfl, h.sameBuffers hb⟩

lemma Lists.markShardStarted (h : Lists log q a effects) (s : ShardId) :
    Lists log (taken q s (a.runtime.markShardStarted s).2.buffered)
      { a with runtime := (a.runtime.markShardStarted s).1 } effects := by
  have hb : (a.runtime.markShardStarted s).2.buffered = a.runtime.buffer s := by
    simp [ShardRegionRuntime.markShardStarted, ShardRegionRuntime.drainBuffer,
      buffer]
  rw [hb]
  exact h.drain (by simp [ShardRegionRuntime.markShardStarted, ShardRegionRuntime.drainBuffer])

/-- A handoff of a shard with nothing buffered drops nothing. -/
lemma Lists.handoff (h : Lists log (unbuffered log s) a effects) :
    Aligned log { a with runtime := (a.runtime.handoff s).1 } effects := by
  have hbuf : (a.runtime.handoff s).1.shardBuffers = a.runtime.shardBuffers.erase s := by
    unfold ShardRegionRuntime.handoff
    dsimp only
    split <;> simp
  refine ⟨fun t => ?_, h.attached⟩
  rw [buffer, hbuf, lookup_erase]
  by_cases ht : t = s
  · subst ht
    have := h.queues t
    rw [this.2 rfl] at this
    rw [if_pos rfl]
    exact this.1
  · rw [if_neg ht]
    exact (h.queues t).1

/-! ## Turns that keep the queues -/

section

abbrev KeepsLists {α : Type} (log : List (RegionEvent M Ref)) (q : QueueRel M Ref)
    (t : RegionTurn M Ref α) : Prop :=
  Keeps NoMismatch (Lists log q) t

variable (env : RegionEnv) {routeReplyTo r : Ref}

lemma keepsLists_send (he : Attached log e) : KeepsLists log q (send e) :=
  .send fun _ _ h => h.send he

lemma keepsLists_update {f : ShardRegionActor M Ref → ShardRegionActor M Ref}
    (hb : ∀ a, (f a).runtime.shardBuffers = a.runtime.shardBuffers)
    (hr : ∀ a, (f a).homeRequests.deliveryRepliesByShard = a.homeRequests.deliveryRepliesByShard) :
    KeepsLists log q (update f) :=
  .update fun a _ h => h.of_same (hb a) (hr a)

lemma keepsLists_deliver {replyTo : Ref} (h : Routed log s message replyTo) :
    KeepsLists log q (tellShard env s (.deliver s message replyTo)) :=
  .bind (.check rfl) fun _ => keepsLists_send h

lemma keepsLists_spawnLocalShard (s : ShardId) :
    KeepsLists log q (spawnLocalShard env s) := by
  refine .read fun a => ?_
  split
  · exact .pure _
  · exact .bind (.check rfl) fun _ => .bind (keepsLists_send trivial) fun _ =>
      keepsLists_update (fun _ => rfl) fun _ => rfl

lemma ended_of_keeps {α : Type} {t : RegionTurn M Ref α} (h : KeepsLists log q t) :
    Triple (Lists log q) t (fun _ => Lists log q) (Ended log) :=
  h.weaken (fun _ _ h => h) (fun _ _ _ h => h) fun _ _ _ h => ⟨h.1, h.2.attached⟩

lemma matched_zip (h : Matched log s messages replies) :
    ∀ x ∈ messages.zip replies, Routed log s x.1 x.2 := by
  induction h with
  | nil => exact fun x hx => by cases hx
  | cons hr _ ih =>
    intro x hx
    rcases mem_cons.mp hx with rfl | hx
    · exact hr
    · exact ih x hx

/-- **Replay** of matching queues does not fail on their lengths. -/
theorem keepsLists_replayWithReplies (h : Matched log s messages replies) :
    KeepsLists log q (replayBufferedToLocalShardWithReplies env s messages replies) := by
  have hlen : decide (messages.length = replies.length) = true := decide_eq_true h.length_eq
  refine .read fun a => .bind (.check rfl) fun _ => ?_
  rw [hlen]
  refine .bind (.pure _) fun _ => .bind (.forM fun x hx => ?_) fun _ => .pure _
  exact keepsLists_deliver env (matched_zip h x hx)

lemma keepsLists_forwardBuffered (region : RegionId) (h : Matched log s messages replies) :
    KeepsLists log q (forwardBufferedToRegion env s region messages replies) := by
  have hlen : decide (messages.length = replies.length) = true := decide_eq_true h.length_eq
  refine .read fun a => ?_
  split
  · exact .pure _
  · rw [hlen]
    refine .bind (.pure _) fun _ => ?_
    split
    · refine .bind (.forM fun x hx => ?_) fun _ => .pure _
      exact keepsLists_send (matched_zip h x hx)
    · exact .pure _

lemma keepsLists_dispatchLocalRoutePlan {plan : RegionRoutePlan M}
    (h : ∀ t message, (plan = .deliverLocal t message ∨ ∃ region, plan = .forward t region message) →
      Routed log t message r) :
    KeepsLists log q (dispatchLocalRoutePlan env plan routeReplyTo r) := by
  refine .read fun a => ?_
  cases plan with
  | deliverLocal t message =>
    dsimp only
    split
    · exact .bind (keepsLists_deliver env (h t message (.inl rfl))) fun _ =>
        keepsLists_send trivial
    · exact keepsLists_send trivial
  | forward t region message =>
    dsimp only
    split
    · exact keepsLists_send trivial
    · split
      · exact keepsLists_send (h t message (.inr ⟨region, rfl⟩))
      · exact keepsLists_send trivial
  | buffered t request | dropped t reason message => exact keepsLists_send trivial

/-! ## Routing -/

/-- The queues after a plan to route an envelope with the reply `r`. -/
def AfterRoute (log : List (RegionEvent M Ref)) (s : ShardId) (message : ShardingEnvelope M) (r : Ref) :
    RegionRoutePlan M → ShardRegionActor M Ref → List (RegionEffect M Ref) → Prop
  | .buffered t _ => fun a ws => t = s ∧
    Lists log (fun t b rs => Matched log t b (if t = s then rs ++ [r] else rs)) a ws
  | .deliverLocal t m | .forward t _ m => fun a ws => t = s ∧ m = message ∧ Aligned log a ws
  | .dropped _ _ _ => Aligned log

lemma Lists.bufferMessage (h : Aligned log a effects) (hr : Routed log s message r)
    (hb : a.runtime.bufferMessage s message = some rt') :
    Lists log (fun t b rs => Matched log t b (if t = s then rs ++ [r] else rs))
      { a with runtime := rt' } effects := by
  rw [ShardRegionRuntime.bufferMessage] at hb
  split at hb
  · cases hb
  · cases hb
    refine ⟨fun t => ?_, h.attached⟩
    have hq := h.queues t
    rw [buffer, lookup_insert]
    by_cases ht : t = s
    · subst ht
      rw [if_pos rfl, if_pos rfl]
      exact rel_append hq (.cons hr .nil)
    · rw [if_neg ht, if_neg ht]
      exact hq

lemma Lists.route (h : Aligned log a effects) (hr : Routed log s message r) :
    AfterRoute log s message r (a.runtime.route s message).2
      { a with runtime := (a.runtime.route s message).1 } effects := by
  unfold ShardRegionRuntime.route
  split
  · exact h
  · split
    · split
      · split
        · exact ⟨rfl, rfl, h⟩
        · split
          · rename_i hb
            exact ⟨rfl, h.bufferMessage hr hb⟩
          · exact h
      · exact ⟨rfl, rfl, h⟩
    · split
      · rename_i hb
        exact ⟨rfl, h.bufferMessage hr hb⟩
      · exact h

lemma routesToLocalShard (hr : Routed log s message r) :
    Triple (Aligned log) (routeToLocalShard env s message routeReplyTo r)
      (fun _ => Aligned log) (Ended log) := by
  refine .bind (.updateGet fun a ws h => h.route hr) fun plan => ?_
  cases plan with
  | buffered t request =>
    refine .bind (Q := fun _ => Aligned log) (.update fun a ws h => ?_) fun _ =>
      ended_of_keeps (.bind (keepsLists_dispatchLocalRoutePlan env ?_) fun _ => ?_)
    · obtain ⟨rfl, h⟩ := h
      refine ⟨fun u => ?_, h.attached⟩
      rw [replies_rememberDelivery]
      exact h.queues u
    · rintro _ _ (hc | ⟨_, hc⟩) <;> cases hc
    · cases request with
      | none => exact .pure _
      | some t => exact keeps_requestShardHomeFromCoordinator plain_lists t
  | deliverLocal t m | forward t region m =>
    refine .assume (p := t = s ∧ m = message) (fun _ _ h => ⟨h.1, h.2.1⟩) fun hp => ?_
    obtain ⟨rfl, rfl⟩ := hp
    refine (ended_of_keeps (.bind (keepsLists_dispatchLocalRoutePlan env ?_) fun _ => .pure _)).pre
      (fun _ _ h => h.2.2)
    rintro _ _ (hc | ⟨_, hc⟩) <;> cases hc
    exact hr
  | dropped t reason m =>
    refine ended_of_keeps (.bind (keepsLists_dispatchLocalRoutePlan env ?_) fun _ => .pure _)
    rintro _ _ (hc | ⟨_, hc⟩) <;> cases hc

/-! ## Hosting -/

lemma marksShardStarted (s : ShardId) :
    Triple (Lists log q) (withRuntime (·.markShardStarted s) : RegionTurn M Ref _)
      (fun started => Lists log (taken q s started.buffered)) (Ended log) :=
  .updateGet fun _ _ h => h.markShardStarted s

/-- The queues after a shard was started, or not for want of a spawner. -/
def AfterStart (log : List (RegionEvent M Ref)) (q : QueueRel M Ref) (s : ShardId) :
    Option (ShardStartedPlan M) → ShardRegionActor M Ref → List (RegionEffect M Ref) → Prop
  | some started => Lists log (taken q s started.buffered)
  | none => fun a ws => Lists log q a ws ∧ a.localShardSpawner = none

lemma startsLocal {P : ShardRegionActor M Ref → Prop} (s : ShardId) :
    Triple (fun a ws => Lists log q a ws ∧ P a) (startLocalShard env s : RegionTurn M Ref _)
      (fun started a ws => AfterStart log q s started a ws ∧ (started = none → P a)) (Ended log) := by
  refine .readEq fun a => ?_
  split
  · rename_i hn
    refine .pure fun a' ws h => ?_
    obtain ⟨rfl, h, hP⟩ := h
    exact ⟨⟨h, Option.isNone_iff_eq_none.mp hn⟩, fun _ => hP⟩
  · refine .bind ((ended_of_keeps (keepsLists_spawnLocalShard env s)).pre (fun a' ws h => ?_))
      fun _ => .bind (marksShardStarted s) fun started => .pure fun _ _ h => ⟨h, nofun⟩
    obtain ⟨rfl, h, -⟩ := h
    exact h

lemma startsFromHost (plan : HostShardPlan M) :
    Triple (AfterHost log q s plan) (maybeStartLocalShardFromHostPlan env plan : RegionTurn M Ref _)
      (fun plan => AfterHost log q s plan) (Ended log) := by
  cases plan with
  | startLocalShard t =>
    refine .assume (fun _ _ h => h.1) fun ht => ?_
    subst ht
    refine .bind ((startsLocal env t).pre fun _ _ h => ⟨h.2, trivial⟩)
      fun started => ?_
    cases started with
    | none => exact .pure fun _ _ h => ⟨rfl, h.1.1⟩
    | some started => exact .pure fun _ _ h => ⟨rfl, h.1⟩
  | alreadyStarted _ _ _ | ignoredGracefulShutdown _ => exact .pure fun _ _ h => h

lemma Lists.pull (h : Lists log q a effects) (s : ShardId) :
    Lists log (pulled q s (a.homeRequests.drain s).2)
      { a with homeRequests := (a.homeRequests.drain s).1 } effects := by
  refine ⟨fun t => ⟨fun ht => ?_, fun ht => ?_⟩, h.attached⟩
  · rw [replies_drain, if_neg ht]
    exact h.queues t
  · subst ht
    refine ⟨?_, h.queues t⟩
    rw [replies_drain, if_pos rfl]

lemma pullsReplies (s : ShardId) :
    Triple (Lists log q) (drainHomeRequests s : RegionTurn M Ref _)
      (fun replies => Lists log (pulled q s replies)) (Ended log) :=
  .updateGet fun _ _ h => h.pull s

lemma replaysFromHost (plan : HostShardPlan M) :
    Triple (AfterHost log (Matched log) s plan)
      (replayBufferedFromHostPlan env plan : RegionTurn M Ref _) (fun _ => Aligned log)
      (Ended log) := by
  cases plan with
  | alreadyStarted t started buffered =>
    refine .assume (fun _ _ h => h.1) fun ht => ?_
    subst ht
    refine .bind ((pullsReplies t).pre (fun _ _ h => h.2)) fun replies => ?_
    refine .assume (fun _ _ h => h.taken_pulled.of_pulled_taken.2) fun hm => ?_
    exact (ended_of_keeps (.bind (keepsLists_replayWithReplies env hm) fun _ => .pure _)).pre
        (fun _ _ h => h.taken_pulled.of_pulled_taken.1)
  | startLocalShard t => exact .pure fun _ _ h => h.2
  | ignoredGracefulShutdown _ => exact .pure fun _ _ h => h

lemma hostsShardPlan (s : ShardId) :
    Triple (Lists log q) (withRuntime (·.hostShard s) : RegionTurn M Ref _)
      (fun plan => AfterHost log q s plan) (Ended log) :=
  .updateGet fun _ _ h => h.hostShard s

lemma alignedHostShardTurn (s : ShardId) :
    Triple (Aligned log) (hostShardTurn env s : RegionTurn M Ref _) (fun _ => Aligned log)
      (Ended log) :=
  .bind (hostsShardPlan s) fun plan => .bind (startsFromHost env plan) fun plan =>
    replaysFromHost env plan

lemma alignedRemoteHostShard (s : ShardId) (reply : Ref) :
    Triple (Aligned log) (applyRemoteHostShard env s reply) (fun _ => Aligned log) (Ended log) := by
  refine .bind (hostsShardPlan s) fun plan => ?_
  cases plan with
  | ignoredGracefulShutdown _ =>
    exact ended_of_keeps (keeps_tellRegisteredCoordinator plain_lists env _)
  | startLocalShard t | alreadyStarted t started buffered =>
    refine .bind (startsFromHost env _) fun plan => .bind (replaysFromHost env plan) fun plan => ?_
    split
    · exact ended_of_keeps (keeps_tolerateRemoteControlReplySend plain_lists env reply nofun)
    · exact ended_of_keeps (.pure _)

lemma alignedHostShardAndReplay (s : ShardId) (r : Ref) :
    Triple (Lists log (unbuffered log s)) (hostShardAndReplayBuffered env s r)
      (fun _ => Aligned log) (Ended log) := by
  have hreplay : Keeps NoMismatch (Aligned log)
      (replayBufferedToLocalShard env s [] r) :=
    .read fun _ => .bind (.check rfl) fun _ => .bind (.pure _) fun _ => .pure _
  refine .read fun a => ?_
  split
  · exact .pure fun _ _ h => h.of_unbuffered
  · refine .bind (hostsShardPlan s) fun plan => ?_
    cases plan with
    | ignoredGracefulShutdown _ => exact .pure fun _ _ h => h.of_unbuffered
    | alreadyStarted t started buffered =>
      refine .assume (p := t = s ∧ buffered = []) (fun _ _ h => ⟨h.1, h.2.of_taken_unbuffered.2⟩)
        fun hp => ?_
      obtain ⟨rfl, rfl⟩ := hp
      exact (ended_of_keeps (.bind hreplay fun _ => .pure _)).pre
          (fun _ _ h => h.2.of_taken_unbuffered.1)
    | startLocalShard t =>
      refine .assume (fun _ _ h => h.1) fun ht => ?_
      subst ht
      refine .bind ((ended_of_keeps (keepsLists_spawnLocalShard env t)).pre (fun _ _ h => h.2))
          fun _ => .bind (marksShardStarted t) fun started => ?_
      refine .assume (fun _ _ h => h.of_taken_unbuffered.2) fun hp => ?_
      rw [hp]
      exact (ended_of_keeps (.bind hreplay fun _ => .pure _)).pre
          (fun _ _ h => h.of_taken_unbuffered.1)

/-! ## Shard homes -/

/-- The queues after the home of a shard was recorded, or rejected. -/
def AfterRecord (log : List (RegionEvent M Ref)) (q : QueueRel M Ref) (s : ShardId) :
    Except ShardingError (ShardHomePlan M) → ShardRegionActor M Ref → List (RegionEffect M Ref) → Prop
  | .ok plan => AfterHome log q s plan
  | .error _ => Lists log q

lemma plain_afterHome (plan : ShardHomePlan M) :
    Plain NoMismatch (AfterHome log q s plan) where
  fails := id
  same hs h := by
    cases plan with
    | startLocalShard t | deliverLocal t buffered | forward t region buffered =>
      exact ⟨h.1, plain_lists.same hs h.2⟩
  send he h := by
    cases plan with
    | startLocalShard t | deliverLocal t buffered | forward t region buffered =>
      exact ⟨h.1, plain_lists.send he h.2⟩

lemma AfterHome.attached (h : AfterHome log q s plan a effects) :
    ∀ e ∈ effects, Attached log e := by
  cases plan with
  | startLocalShard t | deliverLocal t buffered | forward t region buffered => exact h.2.attached

lemma recordsHomePlan (s : ShardId) (region : RegionId) :
    Triple (Lists log q) (recordHome s region : RegionTurn M Ref _) (AfterRecord log q s)
      (Ended log) := by
  refine .updateGet fun a ws h => ?_
  cases hr : a.runtime.recordShardHome s region with
  | error e => exact h
  | ok x => exact h.recordShardHome hr

/-- A home that is this region finds the shard started, a spawner to start it or nothing buffered. -/
def Startable (a : ShardRegionActor M Ref) (s : ShardId) (region : RegionId) : Prop :=
  region = a.runtime.selfRegion →
    a.localShardSpawner.isSome = true ∨ s ∈ a.runtime.localShards ∨ a.runtime.buffer s = []

instance (a : ShardRegionActor M Ref) (s : ShardId) (region : RegionId) :
    Decidable (Startable a s region) :=
  inferInstanceAs (Decidable (_ → _))

/-- A plan to start the shard is carried out, or there is nothing buffered. -/
def StartsOrEmpty (a : ShardRegionActor M Ref) (s : ShardId) : ShardHomePlan M → Prop
  | .startLocalShard _ => a.localShardSpawner.isSome = true ∨ a.runtime.buffer s = []
  | _ => True

lemma startsOrEmpty_of_record {region : RegionId} (hs : Startable a s region)
    (hr : a.runtime.recordShardHome s region = .ok (rt', plan)) :
    StartsOrEmpty { a with runtime := rt' } s plan := by
  obtain ⟨-, hself, ⟨rfl | rfl, -⟩ | ⟨rfl, hlocal, hb⟩⟩ := recordShardHome_spec hr
  · trivial
  · trivial
  · refine (hs (hself s rfl).2).imp_right fun h => ?_
    rw [buffer, hb]
    exact h.resolve_left hlocal

/-- After a plan that still starts the shard nothing is buffered. -/
lemma startsFromHome (plan : ShardHomePlan M) :
    Triple (fun a ws => AfterHome log q s plan a ws ∧ StartsOrEmpty a s plan)
      (maybeStartLocalShardFromHomePlan env plan : RegionTurn M Ref _)
      (fun plan a ws => AfterHome log q s plan a ws ∧
        ∀ t, plan = .startLocalShard t → a.runtime.buffer s = []) (Ended log) := by
  cases plan with
  | startLocalShard t =>
    refine .assume (fun _ _ h => h.1.1) fun ht => ?_
    subst ht
    refine .bind ((startsLocal env t).pre fun _ _ h => ⟨h.1.2, h.2⟩) fun started => ?_
    cases started with
    | none =>
      refine .pure fun _ _ h => ⟨⟨rfl, h.1.1⟩, fun _ _ => (h.2 rfl).resolve_left ?_⟩
      rw [h.1.2]
      exact Bool.false_ne_true
    | some started => exact .pure fun _ _ h => ⟨⟨rfl, h.1⟩, nofun⟩
  | deliverLocal _ _ | forward _ _ _ => exact .pure fun _ _ h => ⟨h.1, nofun⟩

lemma watchesFromHome (plan : ShardHomePlan M) :
    Triple (AfterHome log q s plan) (watchRegionFromHomePlan env plan : RegionTurn M Ref Unit)
      (fun _ => AfterHome log q s plan) (Ended log) :=
  (keeps_watchRegionFromHomePlan (plain_afterHome plan) env plan).weaken (fun _ _ h => h)
    (fun _ _ _ h => h) fun _ _ _ h => ⟨h.1, h.2.attached⟩

lemma AfterHome.of_unbuffered
    (h : AfterHome log (unbuffered log s) s plan a effects) : Aligned log a effects := by
  cases plan with
  | startLocalShard t => exact h.2.of_unbuffered
  | deliverLocal t buffered | forward t region buffered => exact h.2.of_taken_unbuffered.1

lemma alignedRecordShardHome (s : ShardId) (region : RegionId) :
    Triple (Lists log (unbuffered log s)) (recordShardHome env s region : RegionTurn M Ref _)
      (fun _ => Aligned log) (Ended log) := by
  refine .bind (recordsHomePlan s region) fun r => ?_
  cases r with
  | error e => exact .pure fun _ _ h => h.of_unbuffered
  | ok plan =>
    refine .bind (watchesFromHome env plan) fun _ =>
      .bind ((startsFromHome env plan).pre fun a ws h => ⟨h, ?_⟩) fun _ =>
        .pure fun _ _ h => h.1.of_unbuffered
    cases plan with
    | startLocalShard t => exact .inr ((h.2.queues s).2 rfl)
    | deliverLocal t buffered | forward t region buffered => trivial

lemma plain_startsOrEmpty (plan : ShardHomePlan M) : Plain NoMismatch
    fun (a : ShardRegionActor M Ref) ws => AfterHome log q s plan a ws ∧ StartsOrEmpty a s plan where
  fails := id
  same {a b ws} hs h := by
    refine ⟨(plain_afterHome plan).same hs h.1, ?_⟩
    cases plan with
    | startLocalShard t =>
      show b.localShardSpawner.isSome = true ∨ (b.runtime.shardBuffers.lookup s).getD [] = []
      rw [hs.spawner, hs.shardBuffers]
      exact h.2
    | deliverLocal t buffered | forward t region buffered => trivial
  send he h := ⟨(plain_afterHome plan).send he h.1, h.2⟩

/-- **The home of a shard**: what was buffered is sent on with the replies that were drained. -/
theorem alignedShardHomePlan (s : ShardId) (plan : ShardHomePlan M) (replies : List Ref) :
    Triple (fun a ws => AfterHome log (pulled (Matched log) s replies) s plan a ws ∧
        StartsOrEmpty a s plan)
      (applyCoordinatorShardHomePlan env plan replies) (fun _ => Aligned log) (Ended log) := by
  refine .bind (startsFromHome env plan) fun plan => ?_
  cases plan with
  | startLocalShard t => exact .pure fun _ _ h => h.1.2.of_pulled_empty (h.2 t rfl)
  | deliverLocal t buffered =>
    refine .assume (fun _ _ h => h.1.1) fun ht => ?_
    subst ht
    refine .assume (fun _ _ h => h.1.2.of_pulled_taken.2) fun hm => ?_
    exact (ended_of_keeps (.bind (keepsLists_replayWithReplies env hm) fun _ => .pure _)).pre
        (fun _ _ h => h.1.2.of_pulled_taken.1)
  | forward t region buffered =>
    refine .assume (fun _ _ h => h.1.1) fun ht => ?_
    subst ht
    refine .assume (fun _ _ h => h.1.2.of_pulled_taken.2) fun hm => ?_
    exact (ended_of_keeps (.bind (keepsLists_forwardBuffered env region hm) fun _ => .pure _)).pre
        (fun _ _ h => h.1.2.of_pulled_taken.1)

lemma AfterHome.pull (h : AfterHome log (Matched log) s plan a effects) :
    AfterHome log (pulled (Matched log) s (a.homeRequests.drain s).2) s plan
      { a with homeRequests := (a.homeRequests.drain s).1 } effects := by
  cases plan with
  | startLocalShard t => exact ⟨h.1, h.2.pull s⟩
  | deliverLocal t buffered | forward t region buffered => exact ⟨h.1, (h.2.pull s).taken_pulled⟩

lemma alignedRemoteShardHome (s : ShardId) (region : RegionId) :
    Triple (fun a ws => Aligned log a ws ∧ Startable a s region)
      (applyRemoteCoordinatorShardHome env s region : RegionTurn M Ref _)
      (fun _ => Aligned log) (Ended log) := by
  refine .bind (Q := fun r a ws => match r with
    | .ok plan => AfterHome log (Matched log) s plan a ws ∧ StartsOrEmpty a s plan
    | .error _ => Aligned log a ws) (.updateGet fun a ws h => ?_) fun r => ?_
  · cases hr : a.runtime.recordShardHome s region with
    | error e => exact h.1
    | ok x => exact ⟨h.1.recordShardHome hr, startsOrEmpty_of_record h.2 hr⟩
  · cases r with
    | error e => exact .pure fun _ _ h => h
    | ok plan =>
      refine .bind ((keeps_watchRegionFromHomePlan (plain_startsOrEmpty plan) env plan).weaken
        (fun _ _ h => h) (fun _ _ _ h => h) fun _ _ _ h => ⟨h.1, h.2.1.attached⟩) fun _ => ?_
      refine .bind (.updateGet fun a ws h => ?_) fun replies =>
        alignedShardHomePlan env s plan replies
      refine ⟨h.1.pull, ?_⟩
      cases plan with
      | startLocalShard t => exact h.2
      | deliverLocal t buffered | forward t region buffered => trivial

/-! ## Stops, restarts and handoffs -/

theorem shardBuffers_markShardStopped (rt : ShardRegionRuntime M) (s : ShardId) :
    (rt.markShardStopped s).shardBuffers = rt.shardBuffers := by
  simp [markShardStopped]

lemma keepsLists_forgetShard (s : ShardId) :
    KeepsLists log q (forgetShard s) :=
  keepsLists_update (fun a => shardBuffers_markShardStopped a.runtime s) fun _ => rfl

lemma keepsLists_markLocalShardStopped (s : ShardId) :
    KeepsLists log q (markLocalShardStopped s) := by
  refine .read fun a => .bind (keepsLists_forgetShard s) fun _ => ?_
  split
  · exact .bind (.updateGet fun a _ h => h.of_same rfl rfl) fun _ => keepsLists_send trivial
  · exact .pure _

lemma keepsLists_suppress (s : ShardId) :
    KeepsLists log q (suppressPendingLocalRestart s) :=
  keepsLists_update (fun a => by split <;> rfl) fun a => by split <;> rfl

lemma alignedRestart (s : ShardId) (generation : ℕ) :
    Triple (Aligned log) (restartLocalShard env s generation : RegionTurn M Ref Unit)
      (fun _ => Aligned log) (Ended log) := by
  refine .read fun a => ?_
  split
  · exact ended_of_keeps (.pure _)
  · refine .bind (ended_of_keeps (keepsLists_update (fun _ => rfl) fun _ => rfl)) fun _ => ?_
    split
    · exact ended_of_keeps (keepsLists_update (fun _ => rfl) fun _ => rfl)
    · split
      · exact ended_of_keeps (.pure _)
      · exact .bind (alignedHostShardTurn env s) fun _ => ended_of_keeps (.pure _)

end

/-! ## The turn and the run -/

/-- What a message needs so that it does not drop, replay or buffer envelopes without their replies. -/
def ShardRegionMsg.KeepsReplies (a : ShardRegionActor M Ref) : ShardRegionMsg M Ref → Prop
  | .route s message _ =>
    match (a.runtime.route s message).2 with
    | .buffered _ _ => False
    | _ => True
  | .hostShardAndReplayBuffered s _ _ | .recordShardHome s _ _ | .markShardStarted s _
  | .handOff s _ | .remoteHandOff s _ | .handOffToLocalShard s _ _ _ => a.runtime.bufferedCount s = 0
  | .remoteCoordinatorShardHome s region => Startable a s region
  | .coordinatorShardHomeResult s result => ∀ region ∈ homeOf s result, Startable a s region
  | _ => True

instance (a : ShardRegionActor M Ref) (message : ShardRegionMsg M Ref) :
    Decidable (message.KeepsReplies a) := by
  unfold ShardRegionMsg.KeepsReplies
  split
  · split <;> infer_instance
  all_goals infer_instance

def RepliesKept (r : RegionRun M Ref) (x : RegionEnv × ShardRegionMsg M Ref) : Prop :=
  x.2.KeepsReplies r.actor

instance (r : RegionRun M Ref) (x : RegionEnv × ShardRegionMsg M Ref) :
    Decidable (RepliesKept r x) :=
  inferInstanceAs (Decidable (ShardRegionMsg.KeepsReplies _ _))

def Beginning (log : List (RegionEvent M Ref)) (message : ShardRegionMsg M Ref)
    (a : ShardRegionActor M Ref) (effects : List (RegionEffect M Ref)) : Prop :=
  Aligned (log ++ [.received message]) a effects ∧ message.KeepsReplies a

lemma beginning_of_keeps {message : ShardRegionMsg M Ref} {α : Type} {t : RegionTurn M Ref α}
    (h : Keeps NoMismatch (Aligned (log ++ [.received message])) t) :
    Triple (Beginning log message) t (fun _ => Aligned (log ++ [.received message]))
      (Ended (log ++ [.received message])) :=
  (ended_of_keeps h).pre (fun _ _ hb => hb.1)

lemma Lists.unbuffered (h : Aligned log a effects) (hs : a.runtime.bufferedCount s = 0) :
    Lists log (unbuffered log s) a effects := by
  refine ⟨fun t => ⟨h.queues t, fun ht => ?_⟩, h.attached⟩
  rw [ht]
  exact length_eq_zero_iff.mp hs

lemma attached_step {m : ShardRegionMsg M Ref} {stopped : Option ShardId}
    (he : HandOffStep m e stopped) : Attached log e := by
  cases he <;> trivial

def alignedHandingOff (log : List (RegionEvent M Ref)) (message : ShardRegionMsg M Ref) :
    HandingOff message where
  fails := NoMismatch
  start := Beginning log message
  holds := Aligned (log ++ [.received message])
  ready s := Lists (log ++ [.received message])
    (Kairo.Sharding.unbuffered (log ++ [.received message]) s)
  due _ := Aligned (log ++ [.received message])
  gone _ := Aligned (log ++ [.received message])
  plain := plain_lists
  of_start h := h.1
  of_due h := h
  of_gone h := h
  readies {s _ _} hm hne h := by
    refine h.1.unbuffered ?_
    unfold ShardRegionMsg.handsOff at hm
    split at hm <;> cases hm <;> exact h.2
  dues _ h := h.1
  suppresses hm := by
    subst hm
    exact (keepsLists_suppress _).pre fun _ _ h => h.1.unbuffered h.2
  plans {s} _ := by
    refine .updateGet fun a _ h => ?_
    obtain ⟨-, -, ⟨_, dropped, hplan, _⟩ | ⟨_, dropped, hplan, _⟩⟩ :=
      ShardRegionRuntime.lists_handoff a.runtime s
    · exact .inl ⟨⟨dropped, hplan⟩, h.handoff⟩
    · exact .inr ⟨⟨dropped, hplan⟩, h.handoff⟩
  stop h := h.send trivial
  forget h := by exact h.of_same (shardBuffers_markShardStopped _ _) rfl
  step he h := h.send (attached_step he)
  answer he h := h.send (attached_step he)

lemma shardBuffers_route {rt : ShardRegionRuntime M}
    (h : ∀ t request, (rt.route s message).2 ≠ .buffered t request) :
    (rt.route s message).1.shardBuffers = rt.shardBuffers := by
  unfold route at h ⊢
  split at h
  · rw [if_pos (by assumption)]
  · rw [if_neg (by assumption)]
    split at h
    · split at h
      · rw [if_pos (by assumption)]
        split at h
        · rw [if_pos (by assumption)]
        · rw [if_neg (by assumption)]
          split at h
          · exact (h _ _ rfl).elim
          · rfl
      · rw [if_neg (by assumption)]
    · split at h
      · exact (h _ _ rfl).elim
      · rfl

/-- **One turn** keeps the queues in step. -/
theorem receive_aligned (env : RegionEnv) (message : ShardRegionMsg M Ref) :
    Triple (Beginning log message) (receive env message)
      (fun _ => Aligned (log ++ [.received message])) (Ended (log ++ [.received message])) := by
  have hplain : Plain NoMismatch (Aligned (log ++ [.received message])) := plain_lists
  have hsend : ∀ {e : RegionEffect M Ref}, Attached (log ++ [.received message]) e →
      Triple (Aligned (log ++ [.received message])) (send e)
        (fun _ => Aligned (log ++ [.received message])) (Ended (log ++ [.received message])) :=
    fun he => ended_of_keeps (keepsLists_send he)
  by_cases hm : message.isPlain = true
  · exact beginning_of_keeps (keeps_receivePlain hplain env hm)
  by_cases hh : message.isHandOff = true
  · exact ((alignedHandingOff log message).receives env hh).weaken (fun _ _ h => h) (fun _ _ _ h => h)
      fun _ _ _ h => ⟨h.1, h.2.attached⟩
  cases message with
  | route s message replyTo =>
    refine .bind (.updateGet fun a ws h => ?_) fun _ => hsend trivial
    refine h.1.sameBuffers (shardBuffers_route fun t request hc => ?_)
    have hkeep : ShardRegionMsg.KeepsReplies a (.route s message replyTo) := h.2
    rw [ShardRegionMsg.KeepsReplies, hc] at hkeep
    exact hkeep
  | routeToLocalShard s message routeReplyTo deliveryReplyTo =>
    refine (routesToLocalShard env ?_).pre (fun _ _ h => h.1)
    exact ⟨routeReplyTo, mem_concat_self⟩
  | hostShard s replyTo =>
    refine .bind ((alignedHostShardTurn env s).pre (fun _ _ h => h.1)) fun plan => ended_of_keeps ?_
    cases plan with
    | ignoredGracefulShutdown _ =>
      exact .bind (keeps_tellRegisteredCoordinator hplain env _) fun _ => keeps_sendPlain hplain rfl
    | startLocalShard _ | alreadyStarted _ _ _ => exact keeps_sendPlain hplain rfl
  | hostShardAndReplayBuffered s replyTo deliveryReplyTo =>
    refine .bind ((alignedHostShardAndReplay env s deliveryReplyTo).pre
        (fun _ _ h => h.1.unbuffered h.2)) fun plan =>
        ended_of_keeps ?_
    cases plan with
    | ignoredGracefulShutdown _ =>
      exact .bind (keeps_tellRegisteredCoordinator hplain env _) fun _ => keeps_sendPlain hplain rfl
    | replayed _ _ _ | missingLocalShardSpawner _ => exact keeps_sendPlain hplain rfl
  | recordShardHome s region replyTo =>
    exact .bind ((alignedRecordShardHome env s region).pre (fun _ _ h => h.1.unbuffered h.2))
        fun plan => hsend trivial
  | markShardStarted s replyTo =>
    exact .bind ((marksShardStarted s).weaken (fun _ _ h => h.1.unbuffered h.2)
      (fun _ _ _ h => h.of_taken_unbuffered.1) fun _ _ _ h => h) fun plan => hsend trivial
  | beginHandOff s replyTo =>
    exact beginning_of_keeps (.bind (keepsLists_suppress s) fun _ =>
      .bind (.updateGet fun a _ h => hplain.same (sameShards_beginHandoff a s) h) fun _ =>
        keeps_sendPlain hplain rfl)
  | remoteHostShard s reply =>
    exact (alignedRemoteHostShard env s reply).pre (fun _ _ h => h.1)
  | coordinatorShardHomeResult s result =>
    rw [receive, applyCoordinatorShardHomeResult]
    cases hr : homeOf s result with
    | none => exact beginning_of_keeps (.pure _)
    | some region =>
      exact (alignedRemoteShardHome env s region).pre (fun _ _ h => ⟨h.1, h.2 region hr⟩)
  | remoteCoordinatorShardHome s region =>
    exact (alignedRemoteShardHome env s region).pre (fun _ _ h => h)
  | markShardStopped s replyTo =>
    exact beginning_of_keeps (.bind (keepsLists_markLocalShardStopped s) fun _ =>
      .bind (keeps_replyOptional hplain replyTo) fun _ => keeps_tryCompleteGracefulShutdown hplain)
  | restartLocalShard s generation =>
    exact (alignedRestart env s generation).pre (fun _ _ h => h.1)
  | terminated actor =>
    exact beginning_of_keeps (keeps_signalTerminated hplain keepsLists_markLocalShardStopped actor)
  | _ => first | exact absurd rfl hm | exact absurd rfl hh

/-! ## Longer logs -/

variable {log' : List (RegionEvent M Ref)}

lemma Routed.mono (h : Routed log s message r) (hlog : log ⊆ log') : Routed log' s message r :=
  h.imp fun _ hm => hlog hm

lemma Matched.mono (h : Matched log s messages replies) (hlog : log ⊆ log') :
    Matched log' s messages replies :=
  List.Forall₂.imp (fun _ _ hr => hr.mono hlog) h

lemma Attached.mono (h : Attached log e) (hlog : log ⊆ log') : Attached log' e := by
  unfold Attached at h ⊢
  split at h
  · exact h.mono hlog
  · exact h.mono hlog
  · trivial

namespace RegionRun

variable {r r' : RegionRun M Ref}

/-- The queues of a live region are in step, and everything was sent with its reply. -/
structure Kept (r : RegionRun M Ref) : Prop where
  matched : r.failed = none → ∀ s, Matched r.log s (r.actor.runtime.buffer s)
    (r.actor.homeRequests.replies s)
  noMismatch : ∀ e ∈ r.failed, NoMismatch e
  attached : ∀ e, .sent e ∈ r.log → Attached r.log e

lemma kept_step {x : RegionEnv × ShardRegionMsg M Ref} (h : r.Kept) (hx : RepliesKept r x)
    (ht : r.step x = some r') : r'.Kept := by
  obtain ⟨hlive, effects, hlog, hturn⟩ := exists_turn ht
  have hreceived : r.log ⊆ r.log ++ [.received x.2] := subset_append_left _ _
  have hall : r.log ++ [.received x.2] ⊆ r'.log := by
    rw [hlog]
    exact subset_append_left _ _
  have hpost := receive_aligned x.1 x.2 r.actor []
    ⟨⟨fun s => (h.matched hlive s).mono hreceived, fun e he => by cases he⟩, hx⟩
  have hattached : (∀ e ∈ effects, Attached (r.log ++ [.received x.2]) e) →
      ∀ e, .sent e ∈ r'.log → Attached r'.log e := by
    intro hnew e he
    rw [hlog] at he
    rcases mem_append.mp he with he | he
    · rcases mem_append.mp he with he | he
      · exact (h.attached e he).mono fun _ hm => hall (hreceived hm)
      · cases mem_singleton.mp he
    · obtain ⟨e', he', heq⟩ := mem_map.mp he
      obtain rfl := RegionEvent.sent.inj heq
      exact (hnew e' he').mono hall
  rcases hturn with ⟨hok, hnone⟩ | ⟨e, herr, hsome⟩
  · rw [hok] at hpost
    refine ⟨fun _ s => (hpost.queues s).mono hall, fun e he => ?_, hattached hpost.attached⟩
    cases hnone.symm.trans he
  · rw [herr] at hpost
    refine ⟨fun hn => ?_, fun e' he' => ?_, hattached hpost.2⟩
    · cases hsome.symm.trans hn
    · cases hsome.symm.trans he'
      exact hpost.1

/-- **Replies stay aligned.**  In every run of a region in which no envelope is buffered by a bare
`Route`, no handoff, mark or explicit home drops or replays a buffer that is not empty, and no home at
the region itself finds envelopes buffered for a shard that cannot be started: as many replies are
remembered for a shard as envelopes are buffered, each routed with its envelope; no turn fails on a
mismatch of their lengths; and every envelope leaves with the reply it was routed with. -/
theorem replies_aligned (h : machine.Reach RepliesKept r) :
    (r.failed = none → ∀ s, Matched r.log s (r.actor.runtime.buffer s)
        (r.actor.homeRequests.replies s) ∧
      (r.actor.homeRequests.replies s).length = r.actor.runtime.bufferedCount s) ∧
    (∀ e ∈ r.failed, e.isMismatch = false) ∧ ∀ e, .sent e ∈ r.log → Attached r.log e := by
  have hkept : r.Kept := by
    refine invariant (fun r h0 => ?_) (fun r x r' hi hx ht => ?_) h
    · obtain ⟨hlog, hfailed, hbuffers, hreplies, _⟩ := h0
      refine ⟨fun _ s => ?_, fun e he => ?_, fun e he => ?_⟩
      · rw [buffer, replies, hbuffers, hreplies]
        exact .nil
      · cases hfailed.symm.trans he
      · rw [hlog] at he
        cases he
    · exact kept_step hi hx ht
  exact ⟨fun hlive s => ⟨hkept.matched hlive s, (hkept.matched hlive s).length_eq.symm⟩,
    hkept.noMismatch, hkept.attached⟩

end RegionRun

/-! ## A handoff that drops envelopes but not their replies -/

namespace DroppedBuffer

open RegionRun

def region : RegionRun ℕ ℕ :=
  ⟨{ ShardRegionActor.new "self" 10 with localShardSpawner := some ⟨10, none⟩ }, [], none⟩

def outside : RegionEnv := ⟨"region", ∅, ∅, ∅, ∅, ∅, 7, false, false⟩

/-- An envelope is buffered while a shard is handed off, and dropped by the handoff; after the shard has
stopped another one is routed and the shard is hosted again. -/
def handedOff : List (RegionEnv × ShardRegionMsg ℕ ℕ) :=
  [(outside, .hostShard "s" 0), (outside, .beginHandOff "s" 1),
    (outside, .routeToLocalShard "s" ⟨"entity", 1⟩ 10 11),
    (outside, .handOffToLocalShard "s" 0 2 3), (outside, .markShardStopped "s" none),
    (outside, .routeToLocalShard "s" ⟨"entity", 2⟩ 20 21), (outside, .hostShard "s" 4)]

/-- A reply remains for no envelope, and hosting the shard again fails on two replies for one
envelope. -/
theorem replies_misaligned :
    (∃ r : RegionRun ℕ ℕ, machine.Reachable r ∧ r.failed = none ∧
      r.actor.runtime.bufferedCount "s" = 0 ∧ r.actor.homeRequests.replies "s" = [11]) ∧
    ∃ r : RegionRun ℕ ℕ, machine.Reachable r ∧ r.failed = some (.replayMismatch "s" 1 2) := by
  constructor
  · exact exists_of_exec (s := region) (handedOff.take 4)
      ⟨rfl, rfl, rfl, rfl, rfl, rfl⟩ (by decide +kernel)
  · exact exists_of_exec (s := region) handedOff ⟨rfl, rfl, rfl, rfl, rfl, rfl⟩
      (by decide +kernel)

/-- The same run with the envelope routed after the handoff. -/
def routedLater : List (RegionEnv × ShardRegionMsg ℕ ℕ) :=
  [(outside, .hostShard "s" 0), (outside, .beginHandOff "s" 1),
    (outside, .handOffToLocalShard "s" 0 2 3),
    (outside, .routeToLocalShard "s" ⟨"entity", 1⟩ 10 11), (outside, .markShardStopped "s" none),
    (outside, .routeToLocalShard "s" ⟨"entity", 2⟩ 20 21)]

theorem replies_aligned_routedLater :
    ∃ r : RegionRun ℕ ℕ, machine.Reach RepliesKept r ∧ r.failed = none ∧
      r.actor.runtime.bufferedCount "s" = 2 ∧ (r.actor.homeRequests.replies "s").length = 2 := by
  obtain ⟨r, hr, hlive, hcount⟩ := exists_of_exec (M := machine) (c := RepliesKept)
    (s := region) (P := fun r => r.failed = none ∧ r.actor.runtime.bufferedCount "s" = 2)
    routedLater ⟨rfl, rfl, rfl, rfl, rfl, rfl⟩ (by decide +kernel)
  exact ⟨r, hr, hlive, hcount, ((replies_aligned hr).1 hlive "s").2.trans hcount⟩

end DroppedBuffer

end Kairo.Sharding
