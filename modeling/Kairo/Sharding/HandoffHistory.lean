import Kairo.Lib.Machine
import Kairo.Sharding.HandoffTurns

/-!
# Every history of a handoff worker

A worker is followed together with the messages that it has received and with what it has sent.  The
phase of the worker says what the history holds: which participants have acknowledged or stopped while
acknowledgements are awaited, that all of them have once the owner is told, and at most one report at
the end.
-/

namespace Kairo.Sharding

open Kairo.Lib HandoffWorker WorkerEffect List

variable {M : Type}

/-- Every participant has acknowledged or stopped. -/
def Cleared (plan : ShardRebalancePlan) (received : List (HandoffWorkerMsg M)) : Prop :=
  ∀ region ∈ plan.participants, ∃ m ∈ received, m.clears plan region = true

/-- The evidence that the shard has stopped came after every participant was cleared. -/
def Stopped (plan : ShardRebalancePlan) (received : List (HandoffWorkerMsg M)) : Prop :=
  ∃ before m after, received = before ++ m :: after ∧ Cleared plan before ∧ m.provesStop plan = true

structure WorkerRun (M : Type) where
  worker : HandoffWorker M
  received : List (HandoffWorkerMsg M)
  sent : List (WorkerEffect M)

namespace WorkerRun

/-- A new worker of the plan handles any messages.  A label also has the regions that reject what is
sent to them in the turn. -/
def machine (plan : ShardRebalancePlan) :
    Machine (WorkerRun M) (Finset RegionId × HandoffWorkerMsg M) where
  init r := ∃ stopMessage timeout transport, r = ⟨.new plan stopMessage timeout transport, [], []⟩
  step r i :=
    let (worker, effects) := r.worker.receive i.1 i.2
    some ⟨worker, r.received ++ [i.2], r.sent ++ effects⟩

def reports (r : WorkerRun M) : List Bool := r.sent.filterMap WorkerEffect.result

/-- What the phase of a worker says about the messages received. -/
inductive Phase (received : List (HandoffWorkerMsg M)) (w : HandoffWorker M) : Prop
  | idle (phase : w.phase = .idle) (message : w.stopMessage ≠ none)
  | awaitingBeginAcks (phase : w.phase = .awaitingBeginAcks) (message : w.stopMessage ≠ none)
      (nonempty : w.remaining ≠ ∅) (participants : w.remaining ⊆ w.plan.participants)
      (cleared : ∀ region ∈ w.plan.participants, region ∉ w.remaining →
        ∃ m ∈ received, m.clears w.plan region = true)
  | awaitingShardStopped (phase : w.phase = .awaitingShardStopped) (cleared : Cleared w.plan received)
  | done (phase : w.phase = .done)

/-- What holds of the histories of the workers of a plan. -/
structure Safe (plan : ShardRebalancePlan) (r : WorkerRun M) : Prop where
  plan_eq : r.worker.plan = plan
  phase : Phase r.received r.worker
  once : r.reports.length ≤ if r.worker.phase = .done then 1 else 0
  told : ∀ region route stop, .handOff region route stop ∈ r.sent →
    region = plan.fromRegion ∧ Cleared plan r.received
  proved : true ∈ r.reports → Stopped plan r.received

variable {plan : ShardRebalancePlan} {received : List (HandoffWorkerMsg M)} {w w' : HandoffWorker M}
  {m : HandoffWorkerMsg M} {effects : List (WorkerEffect M)} {r : WorkerRun M} {region : RegionId}

lemma clears_concat (h : ∃ x ∈ received, x.clears plan region = true) :
    ∃ x ∈ received ++ [m], x.clears plan region = true := by
  obtain ⟨x, hx, hc⟩ := h
  exact ⟨x, mem_append_left _ hx, hc⟩

lemma cleared_concat (h : Cleared plan received) : Cleared plan (received ++ [m]) :=
  fun region hregion => clears_concat (h region hregion)

/-- The regions without an acknowledgement are those that remain after the message. -/
lemma clears_of_erase (h : ∀ r ∈ w.plan.participants, r ∉ w.remaining →
      ∃ x ∈ received, x.clears w.plan r = true) (hm : m.clears w.plan region = true) :
    ∀ r ∈ w.plan.participants, r ∉ w.remaining.erase region →
      ∃ x ∈ received ++ [m], x.clears w.plan r = true := by
  intro r hr hn
  by_cases he : r = region
  · exact ⟨m, mem_concat_self, he ▸ hm⟩
  · exact clears_concat (h r hr fun hmem => hn (Finset.mem_erase.mpr ⟨he, hmem⟩))

lemma Phase.cleared_of_clearsLast (h : Phase received w) (hl : w.ClearsLast m) :
    Cleared w.plan (received ++ [m]) := by
  rcases hl with ⟨-, hnone⟩ | ⟨hp, region, hm, hlast⟩
  · intro r hr
    simp [hnone] at hr
  · cases h with
    | awaitingBeginAcks _ _ _ _ hc =>
      exact fun r hr => clears_of_erase hc hm r hr (by simp [hlast])
    | idle h | awaitingShardStopped h | done h => rw [hp] at h; cases h

lemma Phase.next (h : Phase received w) (ha : Acts w m w' effects) :
    Phase (received ++ [m]) w' := by
  have hsame : Phase (received ++ [m]) w := by
    cases h with
    | idle hp hs => exact .idle hp hs
    | awaitingBeginAcks hp hs hl hsub hc =>
      exact .awaitingBeginAcks hp hs hl hsub fun r hr hn => clears_concat (hc r hr hn)
    | awaitingShardStopped hp hc => exact .awaitingShardStopped hp (cleared_concat hc)
    | done hp => exact .done hp
  cases ha with
  | stays hw | asks _ hw => exact hw ▸ hsame
  | prepares hp hp' hplan hs hr hl =>
    cases h with
    | idle _ hm =>
      refine .awaitingBeginAcks hp' (hs ▸ hm) ?_ ?_ ?_
      · exact hr ▸ fun hnone => hm (hl hnone)
      · rw [hr, hplan]
      · exact fun r hmem hn => absurd hmem (by rwa [hplan, ← hr])
    | awaitingBeginAcks h | awaitingShardStopped h | done h => rw [hp] at h; cases h
  | clears region hp hm hw hl =>
    subst hw
    cases h with
    | awaitingBeginAcks _ hs _ hsub hc =>
      exact .awaitingBeginAcks hp hs (fun hnone => hs (hl hnone))
        ((Finset.erase_subset _ _).trans hsub) (clears_of_erase hc hm)
    | idle h | awaitingShardStopped h | done h => rw [hp] at h; cases h
  | tells hl hp hplan => exact .awaitingShardStopped hp (hplan ▸ h.cleared_of_clearsLast hl)
  | ends _ hp => exact .done hp

lemma Safe.silent (h : Safe plan r) (hd : r.worker.phase ≠ .done) : r.reports = [] := by
  have h0 := h.once
  rwa [if_neg hd, Nat.le_zero, length_eq_zero_iff] at h0

lemma Safe.once_next (h : Safe plan r) (ha : Acts r.worker m w' effects) :
    (r.reports ++ effects.filterMap result).length ≤
      if w'.phase = .done then 1 else 0 := by
  have hquiet (hq : effects.filterMap result = []) (hd : r.worker.phase ≠ .done) :
      (r.reports ++ effects.filterMap result).length ≤ if w'.phase = .done then 1 else
        0 := by
    simp [hq, h.silent hd]
  cases ha with
  | stays hw hq =>
    rw [hw, hq.2, append_nil]
    exact h.once
  | asks hp _ _ hc => exact hquiet (hc ▸ rfl) (by simp [hp])
  | prepares hp _ _ _ _ _ hq => exact hquiet hq.2 (by simp [hp])
  | clears _ hp _ _ _ he => exact hquiet (he ▸ rfl) (by simp [hp])
  | tells hl _ _ hc =>
    obtain ⟨before, route, stop, hq, rfl⟩ := hc
    exact hquiet (by simp [filterMap_append, hq.2, result]) hl.ne_done
  | ends hd hp _ _ ok _ hr =>
    rw [if_pos hp, h.silent hd, nil_append]
    exact hr.length_le

lemma Safe.told_next (h : Safe plan r) (ha : Acts r.worker m w' effects) {route : HandoffRoute}
    {stop : M} (he : .handOff region route stop ∈ effects) :
    region = plan.fromRegion ∧ Cleared plan (r.received ++ [m]) := by
  have hmute (hm : Mute effects) : False := by simpa [isCommand] using hm _ he
  cases ha with
  | stays _ hq | prepares _ _ _ _ _ _ hq => exact (hmute hq.1).elim
  | asks _ _ _ hc | clears _ _ _ _ _ hc => simp [hc] at he
  | tells hl _ _ hc =>
    obtain ⟨before, route', stop', hq, rfl⟩ := hc
    have hcleared := h.phase.cleared_of_clearsLast hl
    rw [h.plan_eq] at hcleared
    refine ⟨?_, hcleared⟩
    rcases mem_append.mp he with he | he
    · simpa [isCommand] using hq.1 _ he
    · rw [(handOff.inj (mem_singleton.mp he)).1, h.plan_eq]
  | ends _ _ _ hm => exact (hmute hm).elim

lemma Safe.proved_next (h : Safe plan r) (ha : Acts r.worker m w' effects)
    (ht : true ∈ effects.filterMap result) : Stopped plan (r.received ++ [m]) := by
  cases ha with
  | stays _ hq => simp [hq.2] at ht
  | asks _ _ _ hc => simp [hc, result] at ht
  | prepares _ _ _ _ _ _ hq => simp [hq.2] at ht
  | clears _ _ _ _ _ hc => simp [hc] at ht
  | tells _ _ _ hc =>
    obtain ⟨before, route, stop, hq, rfl⟩ := hc
    simp [filterMap_append, hq.2, result] at ht
  | ends _ _ _ _ ok hok hr =>
    obtain ⟨hp, hm⟩ := hok (mem_singleton.mp (hr.subset ht)).symm
    rw [h.plan_eq] at hm
    refine ⟨r.received, m, [], rfl, ?_, hm⟩
    cases h.phase with
    | awaitingShardStopped _ hc => exact h.plan_eq ▸ hc
    | idle h | awaitingBeginAcks h | done h => rw [hp] at h; cases h

theorem Safe.next (h : Safe plan r) (ha : Acts r.worker m w' effects) :
    Safe plan ⟨w', r.received ++ [m], r.sent ++ effects⟩ := by
  refine ⟨ha.plan_eq.trans h.plan_eq, h.phase.next ha, ?_, fun region route stop he => ?_, fun ht => ?_⟩
  · rw [reports, filterMap_append]
    exact h.once_next ha
  · rcases mem_append.mp he with he | he
    · exact (h.told _ _ _ he).imp_right cleared_concat
    · exact h.told_next ha he
  · rw [reports, filterMap_append] at ht
    rcases mem_append.mp ht with ht | ht
    · obtain ⟨before, x, after, he, hc⟩ := h.proved ht
      exact ⟨before, x, after ++ [m], by simp [he], hc⟩
    · exact h.proved_next ha ht

lemma safe_reachable (hr : (machine plan).Reachable r) : Safe plan r := by
  refine hr.invariant ?_ ?_
  · rintro _ ⟨stop, timeout, transport, rfl⟩
    exact ⟨rfl, .idle rfl (by simp [HandoffWorker.new]), by simp [reports], by simp, by simp [reports]⟩
  · rintro r ⟨rejecting, m⟩ _ h - ⟨⟩
    exact h.next (acts_receive m)

lemma Phase.receive_ack (h : Phase received w) (hr : region ∉ w.plan.participants)
    (rejecting : Finset RegionId) :
    w.receive rejecting (.beginHandOffAck region (.ack w.plan.shard w.plan.shard)) = (w, []) := by
  rw [HandoffWorker.receive, applyBeginAck]
  split
  · rfl
  · rename_i hp
    cases h with
    | idle h | awaitingShardStopped h | done h => exact absurd h (by simp [not_not.mp hp])
    | awaitingBeginAcks _ _ hl hsub =>
      have he : w.remaining.erase region = w.remaining :=
        Finset.erase_eq_of_notMem fun h => hr (hsub h)
      simp [acknowledged, he, hl]

/-- **A handoff worker over any history.**  It reports at most once; it tells the owner only after
every participant has acknowledged or stopped; it reports a success only after that and after the
evidence that the shard has stopped; and acknowledgements of the shard by other regions do nothing. -/
theorem handoff_protocol (hr : (machine plan).Reachable r) :
    r.reports.length ≤ 1 ∧
      (∀ region route stop, .handOff region route stop ∈ r.sent →
        region = plan.fromRegion ∧ Cleared plan r.received) ∧
      (true ∈ r.reports → Stopped plan r.received) ∧
      ∀ rejecting, ∀ region ∉ plan.participants,
        r.worker.receive rejecting (.beginHandOffAck region (.ack plan.shard plan.shard)) =
          (r.worker, []) := by
  have h := safe_reachable hr
  refine ⟨h.once.trans ?_, h.told, h.proved, fun rejecting region hn => ?_⟩
  · split_ifs
    · exact le_refl 1
    · exact zero_le_one
  · obtain rfl := h.plan_eq
    exact h.phase.receive_ack hn rejecting

end WorkerRun

namespace OneParticipant

/-- Region `a` owns the shard, and region `b` takes part in its handoff. -/
def plan : ShardRebalancePlan := ⟨"s", "a", {"b"}⟩

def worker : WorkerRun Unit :=
  ⟨.new plan () 10 ((Finmap.singleton "a" .actor).insert "b" .wire), [], []⟩

/-- The participant acknowledges, and the owner reports the stop. -/
theorem handoff_protocol_success : ∃ r : WorkerRun Unit, (WorkerRun.machine plan).Reachable r ∧
    true ∈ r.reports ∧ Stopped plan r.received := by
  obtain ⟨r, hr, hs⟩ := Machine.Reach.exists_of_exec (M := WorkerRun.machine plan)
    (c := fun _ _ => True) (s := worker) (P := fun r => true ∈ r.reports)
    [(∅, .start), (∅, .beginHandOffAck "b" (.ack "s" "s")), (∅, .remoteShardStopped "a" "s")]
    ⟨_, _, _, rfl⟩ (by decide +kernel)
  exact ⟨r, hr, hs, (WorkerRun.handoff_protocol hr).2.2.1 hs⟩

/-- An acknowledgement of another shard ends the attempt, whoever sends it. -/
theorem stranger_ends_attempt : ∃ r : WorkerRun Unit, (WorkerRun.machine plan).Reachable r ∧
    "c" ∉ plan.participants ∧ r.worker.phase = .awaitingBeginAcks ∧
    (r.worker.receive ∅ (.beginHandOffAck "c" (.ack "t" "t"))).1.phase = .done := by
  obtain ⟨r, hr, hs⟩ := Machine.Reach.exists_of_exec (M := WorkerRun.machine plan)
    (c := fun _ _ => True) (s := worker) (P := fun r => r.worker.phase = .awaitingBeginAcks ∧
      (r.worker.receive ∅ (.beginHandOffAck "c" (.ack "t" "t"))).1.phase = .done)
    [(∅, .start)] ⟨_, _, _, rfl⟩ (by decide +kernel)
  exact ⟨r, hr, by decide, hs⟩

end OneParticipant

end Kairo.Sharding
