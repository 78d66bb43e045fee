import Kairo.Sharding.Coordinator

/-!
# What turns of a worker and of the coordinator do to handoffs

A worker tells the owner once, when the last participant has acknowledged, and from then on waits for
the stop.  The coordinator spawns workers under new references and passes on to them that a region has
stopped and what the wire form of the control messages answers.
-/

namespace Kairo.Sharding

open Kairo.Lib Turn List WorkerEffect

variable {M : Type}

/-! ## Workers -/

/-- The messages by which the owner reports the stop of the shard, and the notice that the owner itself
has stopped. -/
def HandoffWorkerMsg.reportsStop (plan : ShardRebalancePlan) : HandoffWorkerMsg M → Bool
  | .localHandOffForwarded (.replyShardStopped shard _ _) => shard = plan.shard
  | .localHandOffCompleted (.completed shard _) => shard = plan.shard
  | .remoteShardStopped region stopped => region = plan.fromRegion ∧ stopped = plan.shard
  | .regionTerminated region => region = plan.fromRegion
  | _ => false

/-- The region acknowledges that it forgot the home of the shard, or it has stopped. -/
@[simp]
def HandoffWorkerMsg.clears (plan : ShardRebalancePlan) (region : RegionId) :
    HandoffWorkerMsg M → Bool
  | .beginHandOffAck sender (.ack shard ack) =>
    sender = region ∧ shard = plan.shard ∧ ack = plan.shard
  | .regionTerminated stopped => stopped = region
  | _ => false

/-- The owner, or its shard actor, shows that the shard has stopped, or the owner has stopped. -/
@[simp]
def HandoffWorkerMsg.provesStop (plan : ShardRebalancePlan) : HandoffWorkerMsg M → Bool
  | .localHandOffForwarded (.replyShardStopped shard _ _) => shard = plan.shard
  | .shardHandOffObserved (.replyShardStopped shard)
  | .shardHandOffObserved (.stopImmediately shard _ _) => shard = plan.shard
  | .localHandOffCompleted (.completed shard stopped) => shard = plan.shard ∧ stopped = plan.shard
  | .remoteShardStopped region stopped => region = plan.fromRegion ∧ stopped = plan.shard
  | .regionTerminated region => region = plan.fromRegion
  | _ => false

def WorkerEffect.isCommand : WorkerEffect M → Bool
  | .handOff .. | .completeHandOff .. => true
  | _ => false

def WorkerEffect.result : WorkerEffect M → Option Bool
  | .report _ ok => some ok
  | _ => none

namespace HandoffWorker

/-- The owner has not been told. -/
def unsent (w : HandoffWorker M) : Bool := w.phase = .idle ∨ w.phase = .awaitingBeginAcks

def reported (effects : List (WorkerEffect M)) : Option Bool := effects.findSome? WorkerEffect.result

/-- No command to the owner. -/
def Mute (effects : List (WorkerEffect M)) : Prop := ∀ e ∈ effects, WorkerEffect.isCommand e = false

/-- What a turn of a worker is.  `observed` tells that the message of the turn is a plan of the shard
actor. -/
inductive Moves (observed : Prop) (w w' : HandoffWorker M) (effects : List (WorkerEffect M)) : Prop
  | prepares (from' : w.unsent = true) (to' : w'.unsent = true) (mute : Mute effects)
      (silent : reported effects = none)
  | tells (from' : w.unsent = true) (to' : w'.phase = .awaitingShardStopped)
      (command : ∃ route stop, effects.filter WorkerEffect.isCommand =
        [.handOff w.plan.fromRegion route stop])
      (silent : reported effects = none)
  | givesUp (from' : w.unsent = true) (to' : w'.phase = .done) (mute : Mute effects)
      (result : reported effects ≠ some true)
  | waits (from' : w.phase = .awaitingShardStopped) (to' : w'.phase = .awaitingShardStopped)
      (command : ∀ e ∈ effects, WorkerEffect.isCommand e = true →
        observed ∧ ∃ timeout, e = .completeHandOff w.plan.fromRegion timeout)
      (silent : reported effects = none)
  | ends (from' : w.phase = .awaitingShardStopped) (to' : w'.phase = .done) (mute : Mute effects)
  | rests (from' : w.phase = .done) (to' : w'.phase = .done) (mute : Mute effects)
      (silent : reported effects = none)

/-- Neither commands to the owner nor reports. -/
def Quiet (effects : List (WorkerEffect M)) : Prop :=
  Mute effects ∧ effects.filterMap WorkerEffect.result = []

/-- The message clears the last participant, or there is none. -/
def ClearsLast (w : HandoffWorker M) (m : HandoffWorkerMsg M) : Prop :=
  w.phase = .idle ∧ w.plan.participants = ∅ ∨ w.phase = .awaitingBeginAcks ∧
    ∃ region, m.clears w.plan region = true ∧ w.remaining.erase region = ∅

/-- What the turn with a message does. -/
inductive Acts (w : HandoffWorker M) (m : HandoffWorkerMsg M) (w' : HandoffWorker M)
    (effects : List (WorkerEffect M)) : Prop
  | stays (same : w' = w) (quiet : Quiet effects)
  | asks (from' : w.phase = .awaitingShardStopped) (same : w' = w)
      (observed : ∃ plan, m = .shardHandOffObserved plan)
      (command : effects = [.completeHandOff w.plan.fromRegion w.handoffTimeout])
  | prepares (from' : w.phase = .idle) (to' : w'.phase = .awaitingBeginAcks) (plan : w'.plan = w.plan)
      (message : w'.stopMessage = w.stopMessage) (remaining : w'.remaining = w.plan.participants)
      (left : w.plan.participants = ∅ → w.stopMessage = none) (quiet : Quiet effects)
  | clears (region : RegionId) (from' : w.phase = .awaitingBeginAcks)
      (cleared : m.clears w.plan region = true)
      (same : w' = { w with remaining := w.remaining.erase region })
      (left : w.remaining.erase region = ∅ → w.stopMessage = none) (silent : effects = [])
  | tells (from' : w.ClearsLast m) (to' : w'.phase = .awaitingShardStopped) (plan : w'.plan = w.plan)
      (command : ∃ before route stop, Quiet before ∧
        effects = before ++ [.handOff w.plan.fromRegion route stop])
  | ends (from' : w.phase ≠ .done) (to' : w'.phase = .done) (plan : w'.plan = w.plan)
      (mute : Mute effects) (ok : Bool)
      (proved : ok = true → w.phase = .awaitingShardStopped ∧ m.provesStop w.plan = true)
      (result : (effects.filterMap WorkerEffect.result).Sublist [ok])

variable {observed : Prop} {rejecting : Finset RegionId} {w w' w₁ : HandoffWorker M}
  {m : HandoffWorkerMsg M} {effects s : List (WorkerEffect M)}

lemma quiet_nil : Quiet ([] : List (WorkerEffect M)) := ⟨forall_mem_nil _, rfl⟩

lemma Quiet.concat (h : Quiet s) {e : WorkerEffect M} (hc : e.isCommand = false)
    (hr : e.result = none) : Quiet (s ++ [e]) := by
  refine ⟨forall_mem_append.mpr ⟨h.1, forall_mem_singleton.mpr hc⟩, ?_⟩
  simp [filterMap_append, h.2, hr]

lemma ClearsLast.ne_done (h : w.ClearsLast m) : w.phase ≠ .done := by
  rcases h with ⟨hp, -⟩ | ⟨hp, -⟩ <;> simp [hp]

lemma acts_finish (hd : w.phase ≠ .done) (h₁ : w₁.phase ≠ .done) (hplan : w₁.plan = w.plan)
    (hq : Quiet s) {ok : Bool}
    (hok : ok = true → w.phase = .awaitingShardStopped ∧ m.provesStop w.plan = true) :
    Acts w m (w₁.finish ok).1 (s ++ (w₁.finish ok).2) := by
  rw [finish, if_neg h₁]
  refine .ends hd rfl hplan (forall_mem_append.mpr ⟨hq.1, ?_⟩) ok hok ?_
  · split_ifs <;> simp [isCommand]
  · rw [filterMap_append, hq.2]
    split_ifs <;> simp [result]

lemma acts_sendLocalHandoff (hl : w.ClearsLast m) (hplan : w₁.plan = w.plan)
    (hs : w₁.stopMessage = w.stopMessage) (hq : Quiet s)
    (hstay : w.stopMessage = none → Acts w m w₁ s) :
    Acts w m (w₁.sendLocalHandoff rejecting).1 (s ++ (w₁.sendLocalHandoff rejecting).2) := by
  unfold sendLocalHandoff
  split
  · rename_i hnone
    rw [append_nil]
    exact hstay (hs ▸ hnone)
  · dsimp only
    split
    · exact .tells hl rfl hplan ⟨s, _, _, hq, by rw [hplan]⟩
    · refine acts_finish hl.ne_done ?_ ?_ hq ?_
      · rintro ⟨⟩
      · exact hplan
      · rintro ⟨⟩

lemma acts_sendBeginHandoffs (hd : w.phase ≠ .done) (h₁ : w₁.phase ≠ .done)
    (hplan : w₁.plan = w.plan) (hstay : ∀ s, Quiet s → Acts w m w₁ s)
    (regions : List RegionId) (hq : Quiet s) :
    Acts w m (w₁.sendBeginHandoffs rejecting regions).1
      (s ++ (w₁.sendBeginHandoffs rejecting regions).2) := by
  induction regions generalizing s with
  | nil => exact hstay _ (by rwa [sendBeginHandoffs, append_nil])
  | cons region regions ih =>
    unfold sendBeginHandoffs
    split
    · rw [append_cons]
      exact ih (hq.concat rfl rfl)
    · exact acts_finish hd h₁ hplan hq nofun

lemma acts_start : Acts w m (w.start rejecting).1 (w.start rejecting).2 := by
  unfold start
  split
  · exact .stays rfl quiet_nil
  · rename_i hp
    have hp := not_not.mp hp
    have hd : w.phase ≠ .done := by simp [hp]
    have hq (t : ℕ) : Quiet [scheduleTimeout (M := M) t] := quiet_nil.concat rfl rfl
    dsimp only
    rw [← singleton_append]
    split
    · rename_i hl
      exact acts_sendLocalHandoff (.inl ⟨hp, hl⟩) rfl rfl (hq _) fun hnone =>
        .prepares hp rfl rfl rfl rfl (fun _ => hnone) (hq _)
    · rename_i hl
      refine acts_sendBeginHandoffs hd ?_ ?_ (fun before hq => ?_) _ (hq _)
      · rintro ⟨⟩
      · rfl
      · exact .prepares hp rfl rfl rfl rfl (fun h => absurd h hl) hq

lemma acts_acknowledged (hp : w.phase = .awaitingBeginAcks) {region : RegionId}
    (hm : m.clears w.plan region = true) :
    Acts w m (w.acknowledged rejecting region).1 (w.acknowledged rejecting region).2 := by
  unfold acknowledged
  dsimp only
  split
  · rename_i hl
    exact acts_sendLocalHandoff (s := []) (.inr ⟨hp, region, hm, hl⟩) rfl rfl quiet_nil
      fun hnone => .clears region hp hm rfl (fun _ => hnone) rfl
  · rename_i hl
    exact .clears region hp hm rfl (fun h => absurd h hl) rfl

theorem acts_receive (m : HandoffWorkerMsg M) :
    Acts w m (w.receive rejecting m).1 (w.receive rejecting m).2 := by
  have stay : Acts w m w [] := .stays rfl quiet_nil
  have fails (hd : w.phase ≠ .done) : Acts w m (w.finish false).1 (w.finish false).2 :=
    acts_finish hd hd rfl quiet_nil nofun
  have ends (hp : w.phase = .awaitingShardStopped) {ok : Bool}
      (hok : ok = true → m.provesStop w.plan = true) : Acts w m (w.finish ok).1 (w.finish ok).2 := by
    have hd : w.phase ≠ .done := by simp [hp]
    exact acts_finish (s := []) hd hd rfl quiet_nil fun h => ⟨hp, hok h⟩
  cases m with
  | start => exact acts_start
  | beginHandOffAck region ack =>
    rw [receive, applyBeginAck.eq_def]
    split
    · exact stay
    · rename_i hp
      have hf := fails (by simp [not_not.mp hp])
      split
      · split
        · exact hf
        · rename_i hs
          exact acts_acknowledged (not_not.mp hp) (by simpa using hs)
      · exact hf
  | localHandOffForwarded reply =>
    rw [receive, applyLocalHandoff.eq_def]
    split
    · exact stay
    · rename_i hp
      have hf := fails (by simp [not_not.mp hp])
      split
      · split
        · exact stay
        · exact hf
      · exact ends (not_not.mp hp) (by simp)
      · exact hf
  | shardHandOffObserved reply =>
    rw [receive, applyShardHandoffObserved.eq_def]
    split
    · exact stay
    · rename_i hp
      have hf := fails (by simp [not_not.mp hp])
      split
      · exact ends (not_not.mp hp) (by simp)
      · exact ends (not_not.mp hp) (by simp)
      · split
        · split
          · exact .asks (not_not.mp hp) rfl ⟨_, rfl⟩ rfl
          · exact hf
        · exact hf
      · exact hf
  | localHandOffCompleted reply =>
    rw [receive, applyLocalHandoffCompletion.eq_def]
    split
    · exact stay
    · rename_i hp
      split
      · exact ends (not_not.mp hp) (by simp)
      · exact fails (by simp [not_not.mp hp])
  | remoteShardStopped region stopped =>
    rw [receive, applyRemoteShardStopped]
    split
    · exact stay
    · rename_i hp
      exact ends (not_not.mp hp) (by simp)
  | regionTerminated region =>
    rw [receive, applyRegionTerminated]
    split
    · exact acts_acknowledged ‹_› (by simp)
    · split
      · exact ends ‹_› fun _ => by simpa using ‹region = _›
      · exact stay
    · exact stay
  | timeout =>
    by_cases hd : w.phase = .done
    · rw [receive, finish, if_pos hd]
      exact stay
    · exact fails hd
  | getState => exact .stays rfl (quiet_nil.concat rfl rfl)

lemma reported_of_quiet (h : Quiet effects) : reported effects = none := by
  rw [reported, ← head?_filterMap, h.2]
  rfl

lemma Acts.moves (h : Acts w m w' effects) :
    Moves (∃ plan, m = .shardHandOffObserved plan) w w' effects := by
  cases h with
  | stays hw hq =>
    subst hw
    have hs := reported_of_quiet hq
    cases hp : w'.phase with
    | idle | awaitingBeginAcks =>
      exact .prepares (by simp [unsent, hp]) (by simp [unsent, hp]) hq.1 hs
    | awaitingShardStopped => exact .waits hp hp (fun e he hc => by simp [hq.1 e he] at hc) hs
    | done => exact .rests hp hp hq.1 hs
  | asks hp hw ho hc =>
    subst hw hc
    exact .waits hp hp (fun e he _ => ⟨ho, _, mem_singleton.mp he⟩) rfl
  | prepares hp hp' _ _ _ _ hq =>
    exact .prepares (by simp [unsent, hp]) (by simp [unsent, hp']) hq.1 (reported_of_quiet hq)
  | clears region hp _ hw _ he =>
    subst hw he
    exact .prepares (by simp [unsent, hp]) (by simp [unsent, hp]) quiet_nil.1 rfl
  | tells hl hp _ hc =>
    obtain ⟨before, route, stop, hq, rfl⟩ := hc
    refine .tells ?_ hp ⟨route, stop, ?_⟩ ?_
    · rcases hl with ⟨hp, -⟩ | ⟨hp, -⟩ <;> simp [unsent, hp]
    · rw [filter_append, filter_eq_nil_iff.mpr fun e he => by simp [hq.1 e he]]
      rfl
    · rw [reported, findSome?_append, ← reported, reported_of_quiet hq]
      rfl
  | ends hd hp' _ hm ok hok hr =>
    cases hp : w.phase with
    | awaitingShardStopped => exact .ends hp hp' hm
    | done => exact absurd hp hd
    | idle | awaitingBeginAcks =>
      refine .givesUp (by simp [unsent, hp]) hp' hm fun hrep => ?_
      rw [reported, ← head?_filterMap] at hrep
      obtain rfl := mem_singleton.mp (hr.subset (mem_of_head? hrep))
      simp [hp] at hok

lemma Acts.plan_eq (h : Acts w m w' effects) : w'.plan = w.plan := by
  cases h with
  | stays hw | asks _ hw | clears _ _ _ hw => rw [hw]
  | prepares _ _ h | tells _ _ h | ends _ _ h => exact h

end HandoffWorker

/-! ## The coordinator -/

def ShardCoordinator.next (c : ShardCoordinator M) : ℕ := (c.handoff.map (·.nextWorker)).getD 0

def ShardCoordinator.activeWorker (c : ShardCoordinator M) (shard : ShardId) : Option ℕ :=
  c.handoff.bind (·.activeWorkers.lookup shard)

def ShardCoordinatorMsg.stoppedRegion (c : ShardCoordinator M) : ShardCoordinatorMsg → Option RegionId
  | .regionStopped region | .remoteRegionStopped region => some region
  | .terminated path => c.regionWatchByPath.lookup path
  | _ => none

/-- What a turn tells a worker belongs to the message of the turn. -/
def Told (m : ShardCoordinatorMsg) (c : ShardCoordinator M) (worker : ℕ) : HandoffWorkerMsg M → Prop
  | .regionTerminated region => m.stoppedRegion c = some region
  | .remoteShardStopped region shard =>
    ∃ w, m = .remoteShardStopped w region shard ∧ c.activeWorker shard = some worker
  | .beginHandOffAck _ _ => True
  | _ => False

/-- What an effect of the coordinator does to handoffs. -/
def Passes (m : ShardCoordinatorMsg) (c₀ c : ShardCoordinator M) : CoordinatorEffect M → Prop
  | .spawnWorker worker w => c₀.next ≤ worker ∧ worker < c.next ∧ w.phase = .idle
  | .tellWorker worker x => Told m c₀ worker x
  | .unstash messages => ∀ x ∈ messages, x ∈ c₀.stashed ∨ x = m
  | _ => True

/-- The end of a turn that started with `c₀`. -/
structure AfterCoordinator (m : ShardCoordinatorMsg) (c₀ c : ShardCoordinator M)
    (effects : List (CoordinatorEffect M)) : Prop where
  next : c₀.next ≤ c.next
  stashed : ∀ x ∈ c.stashed, x ∈ c₀.stashed ∨ x = m
  watched : ∀ path region, c.regionWatchByPath.lookup path = some region →
    c₀.regionWatchByPath.lookup path = some region ∨ m = .registerLocalRegion region (some path)
  passes : ∀ e ∈ effects, Passes m c₀ c e

section AfterCoordinator

variable {m : ShardCoordinatorMsg} {c₀ c c' : ShardCoordinator M}
  {effects : List (CoordinatorEffect M)} {e : CoordinatorEffect M}

lemma Passes.mono (h : Passes m c₀ c e) (hn : c.next ≤ c'.next) : Passes m c₀ c' e := by
  cases e <;> try exact h
  exact ⟨h.1, h.2.1.trans_le hn, h.2.2⟩

namespace AfterCoordinator

lemma refl : AfterCoordinator m c₀ c₀ [] :=
  ⟨le_rfl, fun _ h => .inl h, fun _ _ h => .inl h, nofun⟩

lemma send (h : AfterCoordinator m c₀ c effects) (he : Passes m c₀ c e) :
    AfterCoordinator m c₀ c (effects ++ [e]) :=
  ⟨h.next, h.stashed, h.watched, forall_mem_append.mpr ⟨h.passes, forall_mem_singleton.mpr he⟩⟩

lemma update (h : AfterCoordinator m c₀ c effects) (hn : c.next ≤ c'.next)
    (hs : c'.stashed = c.stashed) (hw : c'.regionWatchByPath = c.regionWatchByPath) :
    AfterCoordinator m c₀ c' effects :=
  ⟨h.next.trans hn, hs ▸ h.stashed, hw ▸ h.watched, fun e he => (h.passes e he).mono hn⟩

end AfterCoordinator

end AfterCoordinator

namespace ShardCoordinator

abbrev KeepsAfter {α : Type} (m : ShardCoordinatorMsg) (c₀ : ShardCoordinator M)
    (t : CoordinatorTurn M α) : Prop :=
  Keeps AnyFailure (AfterCoordinator m c₀) t

variable {m : ShardCoordinatorMsg} {c₀ : ShardCoordinator M} (env : CoordinatorEnv)
  {region : RegionId} {path : Option String}

lemma keepsAfter_send (he : ∀ c, Passes m c₀ c e) : KeepsAfter m c₀ (Turn.send e) :=
  .send fun c _ h => h.send (he c)

lemma keepsAfter_update {f : ShardCoordinator M → ShardCoordinator M}
    (hf : ∀ c, (f c).next = c.next ∧ (f c).stashed = c.stashed ∧
      (f c).regionWatchByPath = c.regionWatchByPath) :
    KeepsAfter m c₀ (Turn.update f) :=
  .update fun c _ h => h.update (hf c).1.ge (hf c).2.1 (hf c).2.2

lemma keepsAfter_withRuntime {α : Type} (f : CoordinatorRuntime → CoordinatorRuntime × α) :
    KeepsAfter m c₀ (withRuntime f) :=
  .updateGet fun _ _ h => h.update le_rfl rfl rfl

lemma keepsAfter_changeRuntime (f : CoordinatorRuntime → CoordinatorRuntime) :
    KeepsAfter m c₀ (changeRuntime f) :=
  keepsAfter_update fun _ => ⟨rfl, rfl, rfl⟩

lemma keepsAfter_orFail {α : Type} (x : Except ShardingError α) :
    KeepsAfter m c₀ (orFail x) := by
  cases x with
  | ok a => exact .pure a
  | error e => exact .fail trivial

/-! ### Workers -/

lemma keepsAfter_spawnWorker (plan : ShardRebalancePlan) :
    KeepsAfter m c₀ (spawnWorker env plan) := by
  refine Triple.readEq fun x => ?_
  split
  · exact .pure fun _ _ h => h.2
  · rename_i handoff hh
    split
    · exact .pure fun _ _ h => h.2
    · refine Triple.bind (.check fun _ _ h => ⟨trivial, h.2⟩) fun _ => ?_
      -- the spawned worker is below the next reference only after the update
      refine Triple.bind (Q := fun _ c effects => ∃ before, effects = before ++ [_] ∧
        AfterCoordinator m c₀ c before ∧ c.handoff = some handoff)
        (.send fun c ws h => ⟨ws, rfl, h.2, h.1 ▸ hh⟩) fun _ => .update fun c ws h => ?_
      obtain ⟨before, rfl, h, hc⟩ := h
      have hnext : c.next = handoff.nextWorker := by simp [next, hc]
      refine AfterCoordinator.send ?_ ?_
      · refine h.update ?_ rfl rfl
        rw [hnext]
        exact Nat.le_succ _
      · exact ⟨hnext ▸ h.next, Nat.lt_succ_self _, rfl⟩

lemma keepsAfter_spawnHandoffWorkers (result : Except ShardingError RebalancePlan) :
    KeepsAfter m c₀ (spawnHandoffWorkers env result) := by
  unfold spawnHandoffWorkers
  split
  · exact .forM fun _ _ => keepsAfter_spawnWorker env _
  · exact .pure _

lemma keepsAfter_spawnShutdownWorkers (plan : RegionShutdownPlan) :
    KeepsAfter m c₀ (spawnShutdownWorkers env plan) := by
  unfold spawnShutdownWorkers
  split
  · exact .forM fun _ _ => keepsAfter_spawnWorker env _
  · exact .pure _

lemma keepsAfter_tellWorker {worker : ℕ} {x : HandoffWorkerMsg M} (h : Told m c₀ worker x) :
    KeepsAfter m c₀ (tellWorker env worker x) :=
  .bind (.check trivial) fun _ => keepsAfter_send fun _ => h

lemma keepsAfter_forwardRegionTerminated (h : m.stoppedRegion c₀ = some region) :
    KeepsAfter m c₀ (forwardRegionTerminated env region) := by
  refine .read fun c => ?_
  split
  · exact .forM fun _ _ => keepsAfter_tellWorker env h
  · exact .pure _

lemma keepsAfter_updateHandoff {f : CoordinatorHandoff M → CoordinatorHandoff M}
    (hf : ∀ h, (f h).nextWorker = h.nextWorker) :
    KeepsAfter m c₀ (updateHandoff f) := by
  refine keepsAfter_update fun c => ⟨?_, rfl, rfl⟩
  simp only [next]
  cases c.handoff with
  | none => rfl
  | some h => exact hf h

/-! ### Homes -/

lemma keepsAfter_settlePlan (plan : GetShardHomePlan) :
    KeepsAfter m c₀ (settlePlan env plan) := by
  refine .bind (.read fun c => ?_) fun _ => .read fun c => ?_
  · split
    · split
      · exact .bind (.check trivial) fun _ => keepsAfter_send fun _ => trivial
      · exact .pure _
    · exact .pure _
  · split
    · split
      · exact .pure _
      · split
        · exact keepsAfter_send fun _ => trivial
        · exact .pure _
    · exact .pure _

variable (requester : RegionId) (shard : ShardId)

lemma keepsAfter_requestHome : KeepsAfter m c₀ (requestHome env requester shard) := by
  refine .read fun c => .bind (keepsAfter_withRuntime _) fun result => ?_
  cases result with
  | ok plan => exact .bind (keepsAfter_settlePlan env plan) fun _ => .pure _
  | error e => exact .pure _

lemma keepsAfter_allocateRemembered :
    KeepsAfter m c₀ (allocateRememberedShardHomes env) :=
  .read fun _ => .bind (keepsAfter_withRuntime _) fun _ => .bind (keepsAfter_orFail _) fun _ =>
    .forM fun _ _ => keepsAfter_settlePlan env _

lemma keepsAfter_tolerate (he : ∀ c, Passes m c₀ c e) :
    KeepsAfter m c₀ (tolerateRemoteReplySend env e) :=
  .bind (.check trivial) fun _ => keepsAfter_send he

lemma keepsAfter_requestRemoteShardHome :
    KeepsAfter m c₀ (requestRemoteShardHome env requester shard) := by
  refine .bind (keepsAfter_requestHome env requester shard) fun result =>
    .bind (keepsAfter_orFail result) fun plan => ?_
  split
  · exact keepsAfter_tolerate env fun _ => trivial
  · exact keepsAfter_tolerate env fun _ => trivial
  · exact .pure _

/-! ### Regions -/

lemma keepsAfter_registerRegion (region : RegionId) :
    KeepsAfter m c₀ (registerRegion region) := by
  refine .read fun c => ?_
  split
  · exact .pure _
  · exact keepsAfter_withRuntime _

lemma keepsAfter_watchLocalRegion (hm : m = .registerLocalRegion region path) :
    KeepsAfter m c₀ (watchLocalRegion env region path) := by
  refine .read fun c => ?_
  split
  · exact .pure _
  · split
    · exact .pure _
    · refine .bind (.check trivial) fun _ => .bind (keepsAfter_send fun _ => trivial) fun _ => ?_
      refine .update fun c ws h => ⟨h.next, h.stashed, fun p r hp => ?_, h.passes⟩
      rcases FinMap.of_lookup_insert hp with ⟨rfl, rfl⟩ | hp
      · exact .inr hm
      · exact h.watched p r hp

lemma keepsAfter_registerLocalRegion (hm : m = .registerLocalRegion region path) :
    KeepsAfter m c₀ (registerLocalRegion env region path) := by
  refine .bind (keepsAfter_watchLocalRegion env hm) fun _ =>
    .bind (keepsAfter_registerRegion region) fun result => ?_
  cases result with
  | error e => exact keepsAfter_send fun _ => trivial
  | ok _ =>
    exact .bind (keepsAfter_updateHandoff fun _ => rfl) fun _ =>
      .bind (keepsAfter_allocateRemembered env) fun _ => keepsAfter_send fun _ => trivial

lemma keepsAfter_registerRemoteRegion (region : RegionId) (target : Bool) :
    KeepsAfter m c₀ (registerRemoteRegion env region target) := by
  refine .bind (keepsAfter_registerRegion region) fun result => .bind (keepsAfter_orFail result) fun
    _ => ?_
  have hend : KeepsAfter m c₀ (do
      tolerateRemoteReplySend env (.registerAck region)
      allocateRememberedShardHomes env) :=
    .bind (keepsAfter_tolerate env fun _ => trivial) fun _ => keepsAfter_allocateRemembered env
  split
  · exact .bind (keepsAfter_updateHandoff fun _ => rfl) fun _ => hend
  · exact hend

lemma keepsAfter_applyRegionStopped (h : m.stoppedRegion c₀ = some region) :
    KeepsAfter m c₀ (applyRegionStopped env region) := by
  refine .bind (keepsAfter_changeRuntime _) fun _ =>
    .bind (keepsAfter_forwardRegionTerminated env h) fun _ =>
      .bind (keepsAfter_updateHandoff fun _ => rfl) fun _ => .read fun c => ?_
  split
  · exact .bind (keepsAfter_withRuntime _) fun _ => .bind (keepsAfter_orFail _) fun _ =>
      keepsAfter_allocateRemembered env
  · exact .pure _

/-! ### The turn -/

lemma keepsAfter_retryHome (requester : RegionId) :
    KeepsAfter m c₀ (retryHome env shard requester) :=
  .bind (keepsAfter_requestHome env requester shard) fun _ => .bind (keepsAfter_orFail _) fun _ =>
    .pure _

lemma keepsAfter_workerDone (ok : Bool) :
    KeepsAfter m c₀ (applyHandoffWorkerDone env shard ok) := by
  refine .bind (keepsAfter_updateHandoff fun _ => rfl) fun _ => .bind (keepsAfter_withRuntime _) fun
    _ =>
    .bind (keepsAfter_orFail _) fun completion => ?_
  cases completion with
  | deallocated _ _ | cleared _ _ | timedOut _ _ => exact .forM fun _ _ => keepsAfter_retryHome env _ _

lemma keepsAfter_rememberStoreLoad (result : Option (Finset ShardId)) :
    KeepsAfter m c₀ (applyRememberStoreLoad env result) := by
  cases result with
  | none => exact keepsAfter_send fun _ => trivial
  | some shards =>
    exact .bind (keepsAfter_update fun _ => ⟨rfl, rfl, rfl⟩) fun _ => keepsAfter_allocateRemembered env

lemma keepsAfter_startTimer (c : ShardCoordinator M) :
    KeepsAfter m c₀ (startTimer c) := by
  unfold startTimer
  split
  · exact keepsAfter_send fun _ => trivial
  · exact .pure _

def AtStart (c₀ c : ShardCoordinator M) (effects : List (CoordinatorEffect M)) : Prop :=
  c = c₀ ∧ effects = []

abbrev TurnEnded (m : ShardCoordinatorMsg) (c₀ : ShardCoordinator M) (e : CoordinatorFailure)
    (c : ShardCoordinator M) (effects : List (CoordinatorEffect M)) : Prop :=
  AnyFailure e ∧ AfterCoordinator m c₀ c effects

/-- The turn ends, normally or not, in a state and with effects after `c₀`. -/
abbrev EndsAfter (m : ShardCoordinatorMsg) (c₀ : ShardCoordinator M) (t : CoordinatorTurn M Unit) : Prop :=
  Triple (AtStart c₀) t (fun _ => AfterCoordinator m c₀) (TurnEnded m c₀)

lemma after_of_keeps {t : CoordinatorTurn M Unit} (h : KeepsAfter m c₀ t) : EndsAfter m c₀ t := by
  refine h.pre fun c ws hs => ?_
  obtain ⟨rfl, rfl⟩ := hs
  exact .refl

lemma after_state {f : ShardCoordinator M → CoordinatorTurn M Unit} (h : KeepsAfter m c₀ (f c₀)) :
    EndsAfter m c₀ (state >>= f) := by
  rintro c ws ⟨rfl, rfl⟩
  exact after_of_keeps h c [] ⟨rfl, rfl⟩

lemma after_terminated (path : String) :
    EndsAfter (.terminated path) c₀ (receiveInitialized env (.terminated path)) := by
  refine after_state ?_
  split
  · rename_i region hregion
    exact .bind (.update fun c ws h => ⟨h.next, h.stashed, fun p r hp =>
      h.watched p r (FinMap.of_lookup_erase hp), h.passes⟩) fun _ =>
        keepsAfter_applyRegionStopped env hregion
  · exact .fail trivial

lemma after_remoteShardStopped (worker : ℕ) (region : RegionId) (shard : ShardId) :
    EndsAfter (.remoteShardStopped worker region shard) c₀
      (receiveInitialized env (.remoteShardStopped worker region shard)) := by
  refine after_state ?_
  split
  · rename_i w hw
    exact keepsAfter_tellWorker env ⟨worker, rfl, hw⟩
  · exact .pure _

lemma after_receiveInitialized (m : ShardCoordinatorMsg) :
    EndsAfter m c₀ (receiveInitialized env m) := by
  cases m with
  | terminated path => exact after_terminated env path
  | remoteShardStopped worker region shard => exact after_remoteShardStopped env worker region shard
  | applyEvent event =>
    exact after_of_keeps (.bind (keepsAfter_withRuntime _) fun _ => .pure _)
  | setAllRegionsRegistered _ | markGracefulShutdown _ | unmarkGracefulShutdown _
  | markRegionTerminating _ | unmarkRegionTerminating _ | markRegionUnavailable _
  | unmarkRegionUnavailable _ =>
    rw [receiveInitialized]
    exact after_of_keeps (keepsAfter_changeRuntime _)
  | setPreparingForShutdown preparing =>
    refine after_of_keeps (.bind (keepsAfter_changeRuntime _) fun _ => .read fun c => ?_)
    split
    · exact keepsAfter_send fun _ => trivial
    · exact keepsAfter_startTimer c
  | gracefulShutdownReq _ | remoteGracefulShutdownReq _ =>
    exact after_of_keeps (.bind (keepsAfter_withRuntime _) fun _ => keepsAfter_spawnShutdownWorkers
    env _)
  | requestShardHome requester shard =>
    exact after_of_keeps (.bind (keepsAfter_requestHome env requester shard) fun _ =>
      keepsAfter_send fun _ => trivial)
  | registerLocalRegion region path => exact after_of_keeps (keepsAfter_registerLocalRegion env rfl)
  | registerRemoteRegion region target =>
    exact after_of_keeps (keepsAfter_registerRemoteRegion env region target)
  | regionStopped _ | remoteRegionStopped _ => exact after_of_keeps (keepsAfter_applyRegionStopped env rfl)
  | requestRemoteShardHome requester shard =>
    exact after_of_keeps (keepsAfter_requestRemoteShardHome env requester shard)
  | planRebalance | rebalanceTick =>
    exact after_of_keeps (.read fun _ => .bind (keepsAfter_withRuntime _) fun _ =>
      keepsAfter_spawnHandoffWorkers env _)
  | completeRebalance shard ok =>
    exact after_of_keeps (.bind (keepsAfter_withRuntime _) fun _ => .pure _)
  | handoffWorkerDone worker shard ok => exact after_of_keeps (keepsAfter_workerDone env shard ok)
  | hostShardObserved _ | remoteHostShardObserved _ _ | getState => exact after_of_keeps (.pure _)
  | remoteBeginHandOffAck worker region shard =>
    refine after_of_keeps (.read fun c => ?_)
    split
    · exact keepsAfter_tellWorker env trivial
    · exact .pure _
  | rememberStoreLoadResult result => exact after_of_keeps (keepsAfter_rememberStoreLoad env result)
  | rememberStoreUpdateResult ok =>
    refine after_of_keeps ?_
    rw [receiveInitialized]
    split
    · exact .pure _
    · exact keepsAfter_send fun _ => trivial
  | startRebalanceTimer _ | stopRebalanceTimer =>
    exact after_of_keeps (.bind (keepsAfter_update fun _ => ⟨rfl, rfl, rfl⟩) fun _ =>
      keepsAfter_send fun _ => trivial)
  | terminate => exact after_of_keeps (keepsAfter_send fun _ => trivial)

theorem after_receive (m : ShardCoordinatorMsg) : EndsAfter m c₀ (receive env m) := by
  refine Triple.read fun c => ?_
  split
  · unfold receiveLoading
    split
    · exact after_of_keeps (keepsAfter_send fun _ => trivial)
    · refine after_of_keeps (.bind (keepsAfter_rememberStoreLoad env _) fun _ => ?_)
      refine Triple.bind (Q := fun stashed c effects => AfterCoordinator _ c₀ c effects ∧
        ∀ x ∈ stashed, x ∈ c₀.stashed ∨ x = _)
        (.updateGet fun c ws h => ⟨⟨h.next, by simp, h.watched, h.passes⟩, h.stashed⟩)
        fun stashed => .send fun c ws h => h.1.send h.2
    · exact after_terminated env _
    · refine after_of_keeps (.update fun c ws h => ⟨h.next, ?_, h.watched, h.passes⟩)
      exact forall_mem_append.mpr ⟨h.stashed, forall_mem_singleton.mpr (.inr rfl)⟩
  · exact after_receiveInitialized env m

end ShardCoordinator

end Kairo.Sharding
