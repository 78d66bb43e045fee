import Kairo.Sharding.RegionHosting

/-!
# Turns that hand off shards

A handoff is planned by the runtime, passed to the shard actor, and completed when the shard has
stopped; the region then forgets the shard and reports it as stopped.  `HandingOff` has a condition
with what it asks before and after these steps; every turn of a handoff keeps the condition.
-/

namespace Kairo.Sharding

open Kairo.Lib Turn ShardRegionActor

variable {M Ref : Type}

def ShardRegionMsg.handsOff : ShardRegionMsg M Ref → Option ShardId
  | .handOff s _ | .handOffToLocalShard s _ _ _ | .remoteHandOff s _ => some s
  | _ => none

def ShardRegionMsg.completes : ShardRegionMsg M Ref → Option ShardId
  | .localShardHandOffStopperResult s _ _ | .remoteLocalShardHandOffStopperResult s _ _
  | .remoteLocalShardHandOffObserved (.replyShardStopped s) _ _
  | .remoteLocalShardHandOffObserved (.stopImmediately s _ _) _ _ => some s
  | _ => none

def ShardRegionMsg.isHandOff : ShardRegionMsg M Ref → Bool
  | .handOff .. | .handOffToLocalShard .. | .remoteHandOff .. | .completeLocalShardHandOff ..
  | .localShardHandOffStopperResult .. | .remoteLocalShardHandOffObserved ..
  | .remoteLocalShardHandOffStopperResult .. => true
  | _ => false

/-- The reference of a coordinator on another node in a message about a handoff. -/
def ShardRegionMsg.wireReply : ShardRegionMsg M Ref → Option Ref
  | .remoteHandOff _ reply | .remoteLocalShardHandOffObserved _ _ reply
  | .remoteLocalShardHandOffStopperResult _ _ reply => some reply
  | _ => none

def HandOffPlan.stops : HandOffPlan → Option ShardId
  | .replyShardStopped s _ _ => some s
  | .forwardToLocalShard _ _ => none

def RegionLocalHandOffPlan.stops : RegionLocalHandOffPlan → Option ShardId
  | .replyShardStopped s _ _ => some s
  | _ => none

/-- The steps of a handoff that a message may send, and the shard that each reports as stopped. -/
inductive HandOffStep : ShardRegionMsg M Ref → RegionEffect M Ref → Option ShardId → Prop
  | planned {s r plan} : HandOffStep (.handOff s r) (.reply r (.handOff plan)) plan.stops
  | localPlan {s stop r r' plan} (h : ∀ t ∈ plan.stops, t = s) :
    HandOffStep (.handOffToLocalShard s stop r r') (.reply r (.localHandOff plan)) plan.stops
  | forwarded {s stop r r' t} :
    HandOffStep (.handOffToLocalShard s stop r r') (.handOffShard t stop (.ref r')) none
  | observed {s r t stop timeout} :
    HandOffStep (.remoteHandOff s r) (.handOffShard t stop (.observed timeout r)) none
  | stopped {m r t} (h : m.wireReply = some r) :
    HandOffStep m (.remoteReply r (.shardStopped t)) (some t)
  | asked {s timeout r} :
    HandOffStep (.completeLocalShardHandOff s timeout r) (.askStopper s timeout (.completion r)) none
  | missing {s timeout r reason} :
    HandOffStep (.completeLocalShardHandOff s timeout r) (.reply r (.completion (.failed s reason)))
    none
  | askedRemote {plan timeout r t} :
    HandOffStep (.remoteLocalShardHandOffObserved plan timeout r)
    (.askStopper t timeout (.remote r)) none
  | completed {s result r} : HandOffStep (.localShardHandOffStopperResult s result r)
      (.reply r (.completion (.completed s s))) (some s)
  | failed {s result r reason} : HandOffStep (.localShardHandOffStopperResult s result r)
      (.reply r (.completion (.failed s reason))) none

/-- A condition `holds` with what it asks in the turn of a message about a handoff. -/
structure HandingOff (m : ShardRegionMsg M Ref) where
  fails : RegionFailure → Prop
  start : RegionCond M Ref
  holds : RegionCond M Ref
  /-- Before the runtime plans the handoff of a shard. -/
  ready : ShardId → RegionCond M Ref
  /-- Before a shard is stopped. -/
  due : ShardId → RegionCond M Ref
  /-- With a shard that may be reported as stopped. -/
  gone : ShardId → RegionCond M Ref
  plain : Plain fails holds
  of_start : ∀ {a ws}, start a ws → holds a ws
  of_due : ∀ {s a ws}, due s a ws → holds a ws
  of_gone : ∀ {s a ws}, gone s a ws → holds a ws
  readies : ∀ {s a ws}, m.handsOff = some s → (∀ r, m ≠ .handOff s r) → start a ws → ready s a ws
  dues : ∀ {s a ws}, m.completes = some s → start a ws → due s a ws
  suppresses : ∀ {s r}, m = .handOff s r → Triple start
    (suppressPendingLocalRestart s : RegionTurn M Ref Unit) (fun _ => ready s)
    fun e a ws => fails e ∧ holds a ws
  plans : ∀ {s}, m.handsOff = some s → Triple (ready s) (withRuntime (·.handoff s) : RegionTurn M Ref _)
    (fun plan a ws => (∃ dropped, plan = .forwardToLocalShard s dropped) ∧ due s a ws ∨
      (∃ dropped, plan = .replyShardStopped s s dropped) ∧ gone s a ws)
    fun e a ws => fails e ∧ holds a ws
  stop : ∀ {s uid a ws}, due s a ws → due s a (ws ++ [.stopShard s uid])
  forget : ∀ {s a ws}, due s a ws → gone s { a with
    runtime := a.runtime.markShardStopped s
    localShards := a.localShards.erase s } ws
  step : ∀ {e a ws}, HandOffStep m e none → holds a ws → holds a (ws ++ [e])
  answer : ∀ {e s a ws}, HandOffStep m e (some s) → gone s a ws → holds a (ws ++ [e])

namespace HandingOff

variable {m : ShardRegionMsg M Ref} (env : RegionEnv) {s : ShardId} {r r' : Ref}

abbrev Failed (c : HandingOff m) (e : RegionFailure) (a : ShardRegionActor M Ref)
    (effects : List (RegionEffect M Ref)) : Prop :=
  c.fails e ∧ c.holds a effects

variable (c : HandingOff m)

lemma keeps_shutdown :
    Keeps c.fails c.holds (tryCompleteGracefulShutdown : RegionTurn M Ref Unit) :=
  keeps_tryCompleteGracefulShutdown c.plain

lemma stops (s : ShardId) :
    Triple (c.due s) (stopLocalShard env s : RegionTurn M Ref Unit) (fun _ => c.gone s) c.Failed := by
  have hforget : Triple (c.due s) (forgetShard s) (fun _ => c.gone s) c.Failed :=
    .update fun _ _ h => c.forget h
  refine Triple.read fun a => ?_
  split
  · exact .bind (.check fun _ _ h => ⟨c.plain.fails rfl, c.of_due h⟩) fun _ =>
      .bind (.send fun _ _ h => c.stop h) fun _ => hforget
  · exact hforget

lemma completesRemote (hr : m.wireReply = some r) (s : ShardId) :
    Triple (c.due s) (completeRemoteHandoff env s r : RegionTurn M Ref Unit) (fun _ => c.holds)
      c.Failed := by
  refine .bind (c.stops env s) fun _ => ?_
  split
  · exact (Keeps.bind c.keeps_shutdown fun _ => .fail (c.plain.fails rfl)).pre fun _ _ => c.of_gone
  · exact .bind (.send fun _ _ h => c.answer (.stopped hr) h) fun _ => c.keeps_shutdown

lemma handsOff (c : HandingOff (.handOff s r : ShardRegionMsg M Ref)) :
    Triple c.start (receive env (.handOff s r)) (fun _ => c.holds) c.Failed := by
  refine .bind (c.suppresses rfl) fun _ => .bind (c.plans rfl) fun plan => .send fun a ws h => ?_
  rcases h with ⟨⟨dropped, rfl⟩, h⟩ | ⟨⟨dropped, rfl⟩, h⟩
  · exact c.step .planned (c.of_due h)
  · exact c.answer .planned h

lemma handsOffRemote (c : HandingOff (.remoteHandOff s r : ShardRegionMsg M Ref)) :
    Triple c.start (receive env (.remoteHandOff s r)) (fun _ => c.holds) c.Failed := by
  refine .bind ((c.plans rfl).pre fun _ _ h => c.readies rfl nofun h) fun plan => ?_
  refine Triple.read fun a => ?_
  split
  · refine .bind (.check fun _ _ h => ⟨c.plain.fails rfl, h.elim (c.of_due ·.2) (c.of_gone ·.2)⟩)
      fun _ => .send fun a ws h => ?_
    rcases h with ⟨⟨dropped, hc⟩, h⟩ | ⟨⟨dropped, hc⟩, h⟩ <;> cases hc
    exact c.answer (.stopped rfl) h
  · rename_i t _ _ _
    refine .assume (p := t = s) (fun a ws h => ?_) fun ht => Triple.pre (P := c.due s) ?_ fun a ws h
    => ?_
    · exact h.elim (fun ⟨⟨_, hc⟩, _⟩ => (HandOffPlan.forwardToLocalShard.inj hc).1) nofun
    · subst ht
      split
      · exact Triple.pre (Keeps.bind (.check (c.plain.fails rfl)) fun _ =>
          .send fun _ _ h => c.step .observed h) fun _ _ => c.of_due
      · exact c.completesRemote env rfl t
    · exact h.elim (fun h => h.2) nofun
  · exact .pure fun _ _ h => h.elim (c.of_due ·.2) (c.of_gone ·.2)

lemma handsOffToLocal {stop : M}
    (c : HandingOff (.handOffToLocalShard s stop r r' : ShardRegionMsg M Ref)) :
    Triple c.start (receive env (.handOffToLocalShard s stop r r')) (fun _ => c.holds) c.Failed := by
  refine .bind ((c.plans rfl).pre fun _ _ h => c.readies rfl nofun h) fun plan =>
    .bind (Q := fun plan a ws => plan.stops = none ∧ c.holds a ws ∨ plan.stops = some s ∧ c.gone s a ws)
      ?_ fun plan => .send fun a ws h => ?_
  · refine Triple.read fun a => ?_
    cases plan with
    | forwardToLocalShard t dropped =>
      refine Triple.pre ?_ fun a ws h => h.elim (c.of_due ·.2) (c.of_gone ·.2)
      dsimp only
      split
      · exact .bind (Keeps.bind (.check (c.plain.fails rfl)) fun _ =>
          .send fun _ _ h => c.step .forwarded h) fun _ => .pure fun _ _ h => .inl ⟨rfl, h⟩
      · exact .pure fun _ _ h => .inl ⟨rfl, h⟩
    | replyShardStopped t stopped dropped =>
      refine .pure fun a ws h => ?_
      rcases h with ⟨⟨dropped, hc⟩, h⟩ | ⟨⟨dropped, hc⟩, h⟩ <;> cases hc
      exact .inr ⟨rfl, h⟩
  · have hstep (hs : ∀ t ∈ plan.stops, t = s) :
        HandOffStep (.handOffToLocalShard s stop r r' : ShardRegionMsg M Ref)
          (.reply r (.localHandOff plan)) plan.stops := .localPlan hs
    rcases h with ⟨hs, h⟩ | ⟨hs, h⟩ <;> rw [hs] at hstep
    · exact c.step (hstep nofun) h
    · exact c.answer (hstep fun t ht => (Option.some.inj ht).symm) h

lemma stopperResult {result : AskResult}
    (c : HandingOff (.localShardHandOffStopperResult s result r : ShardRegionMsg M Ref)) :
    Triple c.start (receive env (.localShardHandOffStopperResult s result r)) (fun _ => c.holds)
      c.Failed := by
  refine .bind (Q := fun plan a ws => (∃ reason, plan = .failed s reason) ∧ c.holds a ws ∨
    plan = .completed s s ∧ c.gone s a ws) ?_ fun plan => .bind (.send fun a ws h => ?_) fun _ =>
      c.keeps_shutdown
  · match result with
    | .ok true =>
      exact .bind ((c.stops env s).pre fun _ _ h => c.dues rfl h) fun _ =>
        .pure fun _ _ h => .inr ⟨rfl, h⟩
    | .ok false | .timeout _ => exact .pure fun _ _ h => .inl ⟨⟨_, rfl⟩, c.of_start h⟩
  · rcases h with ⟨⟨reason, rfl⟩, h⟩ | ⟨rfl, h⟩
    · exact c.step .failed h
    · exact c.answer .completed h

/-- **Every turn of a handoff.** -/
theorem receives (c : HandingOff m) (hm : m.isHandOff = true) :
    Triple c.start (receive env m) (fun _ => c.holds) c.Failed := by
  have hpure : Triple c.start (pure () : RegionTurn M Ref Unit) (fun _ => c.holds) c.Failed :=
    .pure fun _ _ h => c.of_start h
  cases m with
  | handOff s r => exact c.handsOff env
  | handOffToLocalShard s stop r r' => exact c.handsOffToLocal env
  | remoteHandOff s r => exact c.handsOffRemote env
  | localShardHandOffStopperResult s result r => exact c.stopperResult env
  | completeLocalShardHandOff s timeout r =>
    exact (keeps_completeLocalShardHandoff (c.step .asked) (c.step .missing)).pre
      fun _ _ => c.of_start
  | remoteLocalShardHandOffObserved plan timeout r =>
    cases plan with
    | replyShardStopped s | stopImmediately s _ _ =>
      exact (c.completesRemote env rfl s).pre fun _ _ h => c.dues rfl h
    | startEntityStopper s _ _ =>
      refine Triple.read fun a => ?_
      split
      · exact .send fun _ _ h => c.step .askedRemote (c.of_start h)
      · exact hpure
    | alreadyInProgress _ => exact hpure
  | remoteLocalShardHandOffStopperResult s result r =>
    match result with
    | .ok true => exact (c.completesRemote env rfl s).pre fun _ _ h => c.dues rfl h
    | .ok false | .timeout _ => exact hpure
  | _ => cases hm

end HandingOff

/-! ## The other turns -/

def ShardRegionMsg.asksToHost : ShardRegionMsg M Ref → Option ShardId
  | .hostShard s _ | .hostShardAndReplayBuffered s _ _ | .remoteHostShard s _ => some s
  | _ => none

def ShardRegionMsg.bringsHome : ShardRegionMsg M Ref → Option (ShardId × RegionId)
  | .recordShardHome s region _ | .remoteCoordinatorShardHome s region => some (s, region)
  | .coordinatorShardHomeResult s result => (homeOf s result).map (s, ·)
  | _ => none

/-- The region is told to host the shard, or that it is the home of the shard. -/
def ShardRegionMsg.hosts (selfRegion : RegionId) (shard : ShardId) (m : ShardRegionMsg M Ref) : Bool :=
  m.asksToHost = some shard ∨ m.bringsHome = some (shard, selfRegion)

/-- **Every turn that hands off nothing.** -/
theorem Hosting.receives (c : Hosting M Ref) (env : RegionEnv) {m : ShardRegionMsg M Ref}
    {S : RegionCond M Ref} (hh : m.isHandOff ≠ true)
    (of_start : ∀ {a ws}, S a ws → c.holds a ws)
    (host : ∀ {a ws}, S a ws → ∀ s ∈ m.asksToHost, c.opens (some s) a ws)
    (home : ∀ {a ws}, S a ws → ∀ x ∈ m.bringsHome, c.homes x.1 x.2 a ws)
    (mark : ∀ s r, m = .markShardStarted s r → Keeps AnyFailure c.holds
      (withRuntime (·.markShardStarted s) : RegionTurn M Ref _))
    (suppress : ∀ s, Keeps AnyFailure c.holds (suppressPendingLocalRestart s : RegionTurn M Ref _))
    (stop : ∀ s, Keeps AnyFailure c.holds (markLocalShardStopped s : RegionTurn M Ref _))
    (restart : ∀ s g, m = .restartLocalShard s g → Keeps AnyFailure c.holds
      (restartLocalShard env s g : RegionTurn M Ref _)) :
    Triple S (receive env m) (fun _ => c.holds) c.Failed := by
  have keeps {t : RegionTurn M Ref Unit} (ht : Keeps AnyFailure c.holds t) :
      Triple S t (fun _ => c.holds) c.Failed := ht.pre fun _ _ h => of_start h
  by_cases hm : m.isPlain = true
  · exact keeps (keeps_receivePlain c.plain env hm)
  cases m with
  | route s message r =>
    exact keeps (.bind (c.keeps_route s message) fun _ => keeps_sendPlain c.plain rfl)
  | routeToLocalShard s message r r' => exact keeps (c.keeps_routeToLocalShard env s message r r')
  | hostShard s r => exact (c.hosts env s r).pre fun _ _ h => host h s rfl
  | hostShardAndReplayBuffered s r r' =>
    exact (c.hostsAndReplays env s r r').pre fun _ _ h => host h s rfl
  | remoteHostShard s r => exact (c.hostsRemote env s r).pre fun _ _ h => host h s rfl
  | recordShardHome s region r =>
    exact .bind ((c.recordsShardHome env s region).pre fun _ _ h => home h _ rfl) fun _ =>
      keeps_sendPlain c.plain rfl
  | coordinatorShardHomeResult s result =>
    rw [receive, applyCoordinatorShardHomeResult]
    cases hr : homeOf s result with
    | none => exact keeps (.pure _)
    | some region =>
      exact (c.appliesRemoteShardHome env s region).pre fun _ _ h =>
        home h (s, region) (Option.mem_map_of_mem _ hr)
  | remoteCoordinatorShardHome s region =>
    exact (c.appliesRemoteShardHome env s region).pre fun _ _ h => home h _ rfl
  | markShardStarted s r => exact keeps (.bind (mark s r rfl) fun _ => keeps_sendPlain c.plain rfl)
  | beginHandOff s r =>
    exact keeps (.bind (suppress s) fun _ =>
      .bind (.updateGet fun a _ h => c.plain.same (sameShards_beginHandoff a s) h) fun _ =>
        keeps_sendPlain c.plain rfl)
  | markShardStopped s r =>
    exact keeps (.bind (stop s) fun _ => .bind (keeps_replyOptional c.plain r) fun _ =>
      keeps_tryCompleteGracefulShutdown c.plain)
  | restartLocalShard s g => exact keeps (restart s g rfl)
  | terminated actor => exact keeps (keeps_signalTerminated c.plain stop actor)
  | _ => first | exact absurd rfl hm | exact absurd rfl hh

end Kairo.Sharding
