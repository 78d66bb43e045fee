import Kairo.Lib.Machine
import Kairo.Cluster.Heartbeat

/-!
# Unreachable notifications can be undone

A node that the heartbeat sender has reported as unreachable stays an active receiver with a missed
deadline until it answers (`Tracked`), whatever happens to the ring.  When it answers while it is one
of the ring's receivers, the sender reports it as reachable again.  When it has rotated out of the ring
selection in the meantime, its answer makes the sender forget it without a word
(`RotatedOut.silent_response`).
-/

namespace Kairo.Cluster

open Kairo.Lib FailureDetectorRegistry HeartbeatSender Finset FinMap

namespace HeartbeatSenderState

variable {s : HeartbeatSenderState} {n node : UniqueAddress} {now now' : ℕ}

/-- The node is an active receiver that has missed its deadline. -/
structure Tracked (s : HeartbeatSenderState) (now : ℕ) (n : UniqueAddress) : Prop where
  active : n ∈ s.activeReceivers
  unavailable : s.failureDetector.isAvailable n now = false

section

variable (h : s.Tracked now n)

include h

lemma Tracked.mono (hle : now ≤ now') : s.Tracked now' n :=
  ⟨h.active, isAvailable_mono hle h.unavailable⟩

lemma Tracked.membershipChange (newRing : HeartbeatNodeRing) :
    (s.membershipChange newRing now).Tracked now n := by
  have hlookup : (s.membershipChange newRing now).failureDetector.detectors.lookup n =
      s.failureDetector.detectors.lookup n := by
    show Finmap.lookup n (retain _ _) = _
    rw [lookup_retain, h.unavailable, Bool.and_false, Bool.not_false, if_pos rfl]
  constructor
  · rcases mem_union.mp h.active with hmy | hold
    · by_cases hnew : n ∈ newRing.myReceivers
      · exact mem_union_left _ hnew
      · refine mem_union_right _ (mem_union_right _ (mem_filter.mpr ⟨?_, ?_⟩))
        · exact mem_sdiff.mpr ⟨hmy, hnew⟩
        · rw [h.unavailable]
          rfl
    · exact mem_union_right _ (mem_union_left _ hold)
  · rw [isAvailable_congr hlookup]
    exact h.unavailable

lemma Tracked.removeMember (hne : n ≠ node) : (s.removeMember node now).Tracked now n := by
  have hc := h.membershipChange (s.ring.removeNode node)
  constructor
  · rcases mem_union.mp hc.active with hmy | hold
    · exact mem_union_left _ hmy
    · exact mem_union_right _ (mem_erase.mpr ⟨hne, hold⟩)
  · refine (isAvailable_congr ?_ now).trans hc.unavailable
    exact lookup_remove_of_ne hne

lemma Tracked.heartbeatResponse (hne : n ≠ node) :
    (s.heartbeatResponse node now).Tracked now n := by
  unfold HeartbeatSenderState.heartbeatResponse
  by_cases hact : node ∉ s.activeReceivers
  · rw [if_pos hact]
    exact h
  · rw [if_neg hact]
    constructor
    · rcases mem_union.mp h.active with hmy | ho
      · exact mem_union_left _ hmy
      · exact mem_union_right _ (mem_erase.mpr ⟨hne, ho⟩)
    · refine (isAvailable_congr ?_ now).trans h.unavailable
      split_ifs
      · rw [lookup_remove_of_ne hne, lookup_heartbeat_of_ne hne]
      · exact lookup_heartbeat_of_ne hne

lemma Tracked.triggerExpectedFirstHeartbeat (node : UniqueAddress) :
    (s.triggerExpectedFirstHeartbeat node now).Tracked now n := by
  unfold HeartbeatSenderState.triggerExpectedFirstHeartbeat
  split_ifs with hc
  · exact h
  · -- a tracked node is monitored, so the first heartbeat is that of another node
    have hne : n ≠ node := by
      rintro rfl
      exact hc (.inr (isMonitoring_of_not_isAvailable h.unavailable))
    refine ⟨h.active, ?_⟩
    refine (isAvailable_congr ?_ now).trans h.unavailable
    exact lookup_heartbeat_of_ne hne

end

end HeartbeatSenderState

/-! ## Runs of the heartbeat sender -/

namespace HeartbeatUndo

/-- A run: the actor, the time of its last turn, and the nodes that were last reported as unreachable
and have been in the ring ever since. -/
structure Run where
  sender : HeartbeatSender
  now : ℕ
  marked : Finset UniqueAddress
  deriving DecidableEq

/-- The nodes reported as unreachable or reachable by a set of effects. -/
def marks (f : UniqueAddress → HeartbeatEffect) (nodes : Finset UniqueAddress)
    (effects : Finset HeartbeatEffect) : Finset UniqueAddress :=
  nodes.filter fun n => f n ∈ effects

/-- One turn at the time `now`; the clock never goes back. -/
def step (r : Run) (i : HeartbeatSenderMsg × ℕ) : Option Run :=
  if i.2 < r.now then none
  else
    let (sender, effects) := r.sender.receive i.2 i.1
    let ring := sender.state.ring.nodes.toFinset
    some
      { sender := sender
        now := i.2
        marked := (r.marked ∩ ring ∪ marks .markUnreachable ring effects) \
          marks .markReachable ring effects }

def machine (selfNode : UniqueAddress) (settings : HeartbeatSenderSettings) :
    Machine Run (HeartbeatSenderMsg × ℕ) where
  init r := r.sender = .new selfNode settings ∧ r.marked = ∅
  step := step

/-- **The turns that keep notifications undoable**: a reported node answers only while it is one of
the ring's receivers and the new deadline does not overflow, and a snapshot keeps the reported nodes
among the active receivers. -/
def Careful (r : Run) (i : HeartbeatSenderMsg × ℕ) : Prop :=
  match i.1 with
  | .heartbeatResponse n => n ∈ r.sender.reportedUnreachable →
      n ∈ r.sender.state.ring.myReceivers ∧
        i.2 + r.sender.state.failureDetector.settings.deadline ≤ durationMax
  | .init snapshot => r.sender.reportedUnreachable ⊆ (r.sender.init snapshot).state.activeReceivers
  | _ => True

instance (r : Run) (i : HeartbeatSenderMsg × ℕ) : Decidable (Careful r i) := by
  unfold Careful
  split <;> infer_instance

/-- Every marked node is known to be reported, by an actor that has a membership to report to. -/
structure Inv (r : Run) : Prop where
  uniform : r.sender.state.failureDetector.Uniform
  tracked : ∀ n ∈ r.marked, n ∈ r.sender.reportedUnreachable ∧ r.sender.state.Tracked r.now n
  ready : r.marked.Nonempty → r.sender.initialized = true ∧ r.sender.membership = true

variable {r r' : Run} {selfNode : UniqueAddress} {settings : HeartbeatSenderSettings}
  {i : HeartbeatSenderMsg × ℕ}

/-! ## One comparison with the failure detector -/

section

variable {h : HeartbeatSender} {now : ℕ} {n : UniqueAddress}

lemma markReachable_mem (hm : h.membership = true) :
    .markReachable n ∈ (h.reconcileFailureDetector now).2 ↔ n ∈ h.newlyReachable now := by
  unfold reconcileFailureDetector
  rw [if_neg (by simp [hm])]
  simp

lemma markUnreachable_mem (hm : h.membership = true) :
    .markUnreachable n ∈ (h.reconcileFailureDetector now).2 ↔ n ∈ h.newlyUnreachable now := by
  unfold reconcileFailureDetector
  rw [if_neg (by simp [hm])]
  simp

lemma not_newlyReachable (ht : h.state.failureDetector.isAvailable n now = false) :
    n ∉ h.newlyReachable now := by
  intro hn
  have := (mem_filter.mp hn).2.2.1
  rw [ht] at this
  cases this

lemma reported_of_tracked (hr : n ∈ h.reportedUnreachable) (ht : h.state.Tracked now n) :
    n ∈ (h.reconcileFailureDetector now).1.reportedUnreachable := by
  unfold reconcileFailureDetector
  split_ifs
  · exact hr
  · refine mem_sdiff.mpr ⟨mem_union_left _ ?_, not_newlyReachable ht.unavailable⟩
    exact mem_inter.mpr ⟨hr, ht.active⟩

lemma tracked_of_newlyUnreachable (hn : n ∈ h.newlyUnreachable now) : h.state.Tracked now n := by
  obtain ⟨hact, -, hav, -⟩ := mem_filter.mp hn
  exact ⟨hact, by simpa using hav⟩

lemma reported_of_newlyUnreachable (hm : h.membership = true) (hn : n ∈ h.newlyUnreachable now) :
    n ∈ (h.reconcileFailureDetector now).1.reportedUnreachable := by
  unfold reconcileFailureDetector
  rw [if_neg (by simp [hm])]
  exact mem_sdiff.mpr ⟨mem_union_right _ hn,
    not_newlyReachable (tracked_of_newlyUnreachable hn).unavailable⟩

lemma reconcile_state (h : HeartbeatSender) (now : ℕ) :
    (h.reconcileFailureDetector now).1.state = h.state ∧
      (h.reconcileFailureDetector now).1.initialized = h.initialized ∧
      (h.reconcileFailureDetector now).1.membership = h.membership := by
  unfold reconcileFailureDetector
  split_ifs <;> exact ⟨rfl, rfl, rfl⟩

lemma reconcile_silent (hm : h.membership = false) : (h.reconcileFailureDetector now).2 = ∅ := by
  unfold reconcileFailureDetector
  rw [if_pos (by simp [hm])]

/-- **The answer of a reported receiver** makes it available and reports it. -/
theorem newlyReachable_response (hu : h.state.failureDetector.Uniform)
    (hr : n ∈ h.reportedUnreachable) (hmy : n ∈ h.state.ring.myReceivers)
    (hmax : now + h.state.failureDetector.settings.deadline ≤ durationMax) :
    n ∈ { h with state := h.state.heartbeatResponse n now }.newlyReachable now := by
  have hstate : h.state.heartbeatResponse n now =
      { h.state with
        oldReceiversNowUnreachable := h.state.oldReceiversNowUnreachable.erase n
        failureDetector := h.state.failureDetector.heartbeat n now } := by
    have hact : n ∈ h.state.activeReceivers := mem_union_left _ hmy
    unfold HeartbeatSenderState.heartbeatResponse
    rw [if_neg (not_not.mpr hact)]
    dsimp only
    rw [if_neg fun hc => hc.2 hmy]
  refine mem_filter.mpr ⟨?_, ?_⟩
  · rw [hstate]
    exact mem_union_left _ hmy
  · rw [hstate]
    exact ⟨isMonitoring_heartbeat, isAvailable_heartbeat hu hmax, hr⟩

end

/-! ## The invariant -/

theorem uniform_heartbeatResponse {s : HeartbeatSenderState} (h : s.failureDetector.Uniform)
    (n : UniqueAddress) (now : ℕ) : (s.heartbeatResponse n now).failureDetector.Uniform := by
  unfold HeartbeatSenderState.heartbeatResponse
  by_cases hact : n ∉ s.activeReceivers
  · rw [if_pos hact]
    exact h
  · rw [if_neg hact]
    split_ifs
    · exact (h.heartbeat n now).remove n
    · exact h.heartbeat n now

lemma uniform_membershipChange {s : HeartbeatSenderState} (h : s.failureDetector.Uniform)
    (ring : HeartbeatNodeRing) (now : ℕ) : (s.membershipChange ring now).failureDetector.Uniform := by
  intro n d hd
  have hd' : Finmap.lookup n (retain _ s.failureDetector.detectors) = some d := hd
  rw [lookup_retain] at hd'
  split_ifs at hd'
  exact h n d hd'

lemma Inv.of_turn (hstep : step r i = some r')
    (uniform : (r.sender.receive i.2 i.1).1.state.failureDetector.Uniform)
    (kept : ∀ n ∈ r.marked, n ∈ (r.sender.receive i.2 i.1).1.state.ring.nodes →
      .markReachable n ∉ (r.sender.receive i.2 i.1).2 →
      n ∈ (r.sender.receive i.2 i.1).1.reportedUnreachable ∧
        (r.sender.receive i.2 i.1).1.state.Tracked i.2 n)
    (fresh : ∀ n, .markUnreachable n ∈ (r.sender.receive i.2 i.1).2 →
      n ∈ (r.sender.receive i.2 i.1).1.reportedUnreachable ∧
        (r.sender.receive i.2 i.1).1.state.Tracked i.2 n ∧
        (r.sender.receive i.2 i.1).1.initialized = true ∧
        (r.sender.receive i.2 i.1).1.membership = true)
    (ready : r.marked.Nonempty → (r.sender.receive i.2 i.1).1.initialized = true ∧
      (r.sender.receive i.2 i.1).1.membership = true) : Inv r' := by
  unfold step at hstep
  split_ifs at hstep
  cases hstep
  refine ⟨uniform, ?_, ?_⟩
  · intro n hn
    obtain ⟨hn, hreach⟩ := mem_sdiff.mp hn
    rcases mem_union.mp hn with hn | hn
    · obtain ⟨hmk, hring⟩ := mem_inter.mp hn
      refine kept n hmk (List.mem_toFinset.mp hring) fun hc => ?_
      exact hreach (mem_filter.mpr ⟨hring, hc⟩)
    · exact ⟨(fresh n (mem_filter.mp hn).2).1, (fresh n (mem_filter.mp hn).2).2.1⟩
  · rintro ⟨n, hn⟩
    rcases mem_union.mp (mem_sdiff.mp hn).1 with hn | hn
    · exact ready ⟨n, (mem_inter.mp hn).1⟩
    · exact (fresh n (mem_filter.mp hn).2).2.2

lemma Inv.of_quiet (h : Inv r) (hstep : step r i = some r')
    (quiet : (r.sender.receive i.2 i.1).2 = ∅)
    (uniform : (r.sender.receive i.2 i.1).1.state.failureDetector.Uniform)
    (kept : ∀ n ∈ r.sender.reportedUnreachable, r.sender.state.Tracked i.2 n →
      n ∈ (r.sender.receive i.2 i.1).1.state.ring.nodes →
      n ∈ (r.sender.receive i.2 i.1).1.reportedUnreachable ∧
        (r.sender.receive i.2 i.1).1.state.Tracked i.2 n)
    (flags : (r.sender.initialized = true → (r.sender.receive i.2 i.1).1.initialized = true) ∧
      (r.sender.membership = true → (r.sender.receive i.2 i.1).1.membership = true)) : Inv r' := by
  have hle : r.now ≤ i.2 := by
    unfold step at hstep
    split_ifs at hstep with hlt
    exact not_lt.mp hlt
  refine Inv.of_turn hstep uniform ?_ ?_ ?_
  · intro n hn hring _
    exact kept n (h.tracked n hn).1 ((h.tracked n hn).2.mono hle) hring
  · intro n hn
    rw [quiet] at hn
    exact absurd hn (notMem_empty _)
  · intro hne
    exact ⟨flags.1 (h.ready hne).1, flags.2 (h.ready hne).2⟩

lemma notMem_removeNode (ring : HeartbeatNodeRing) (n : UniqueAddress) :
    n ∉ (ring.removeNode n).nodes := by
  simp [HeartbeatNodeRing.removeNode]

lemma handleClusterEvent_cases (h : HeartbeatSender) (now : ℕ) (e : ClusterEvent) :
    h.handleClusterEvent now e = h ∨
      (∃ ring, h.handleClusterEvent now e =
        { h with state := h.state.membershipChange ring now }) ∨
      ∃ node, h.handleClusterEvent now e = { h with
        state := h.state.removeMember node now
        routes := h.routes.erase node
        reportedUnreachable := h.reportedUnreachable.erase node } := by
  have added : ∀ m, h.addMember m now = h ∨
      ∃ ring, h.addMember m now = { h with state := h.state.membershipChange ring now } := by
    intro m
    unfold addMember
    split_ifs
    · exact .inr ⟨_, rfl⟩
    · exact .inl rfl
  rcases e with e | e | _ | _ | _ | _ | _
  · rcases e with m | m | m | m | m | m | ⟨m, st⟩
    case removed =>
      rw [handleClusterEvent, removeMember]
      split_ifs
      · exact .inr (.inr ⟨_, rfl⟩)
      · exact .inl rfl
    all_goals exact (added m).imp_right .inl
  · rcases e with m | m
    all_goals exact .inr (.inl ⟨_, rfl⟩)
  all_goals exact .inl rfl

/-- A cluster event keeps what is reported and tracked, unless it removes the node. -/
lemma handleClusterEvent_kept {h : HeartbeatSender} {now : ℕ} {n : UniqueAddress}
    (hr : n ∈ h.reportedUnreachable) (ht : h.state.Tracked now n) (e : ClusterEvent)
    (hring : n ∈ (h.handleClusterEvent now e).state.ring.nodes) :
    n ∈ (h.handleClusterEvent now e).reportedUnreachable ∧
      (h.handleClusterEvent now e).state.Tracked now n := by
  obtain he | ⟨ring, he⟩ | ⟨node, he⟩ := handleClusterEvent_cases h now e
  all_goals rw [he] at hring ⊢
  · exact ⟨hr, ht⟩
  · exact ⟨hr, ht.membershipChange ring⟩
  · have hne : n ≠ node := by
      rintro rfl
      exact notMem_removeNode _ _ hring
    exact ⟨mem_erase.mpr ⟨hne, hr⟩, ht.removeMember hne⟩

lemma handleClusterEvent_uniform {h : HeartbeatSender} (hu : h.state.failureDetector.Uniform)
    (now : ℕ) (e : ClusterEvent) :
    (h.handleClusterEvent now e).state.failureDetector.Uniform := by
  obtain he | ⟨ring, he⟩ | ⟨node, he⟩ := handleClusterEvent_cases h now e
  all_goals rw [he]
  · exact hu
  · exact uniform_membershipChange hu ring now
  · exact (uniform_membershipChange hu _ now).remove node

lemma handleClusterEvent_flags (h : HeartbeatSender) (now : ℕ) (e : ClusterEvent) :
    (h.handleClusterEvent now e).initialized = h.initialized ∧
      (h.handleClusterEvent now e).membership = h.membership := by
  obtain he | ⟨ring, he⟩ | ⟨node, he⟩ := handleClusterEvent_cases h now e
  all_goals
    rw [he]
    exact ⟨rfl, rfl⟩

/-- A turn that compares with the failure detector: every marked node is still tracked or available
again. -/
lemma Inv.of_reconcile {g : HeartbeatSender} (h : Inv r)
    (hstep : step r i = some r') (hinit : g.initialized = true)
    (hmem : g.membership = r.sender.membership)
    (hrep : g.reportedUnreachable = r.sender.reportedUnreachable)
    (uniform : g.state.failureDetector.Uniform)
    (hstate : (r.sender.receive i.2 i.1).1.state = g.state)
    (hflags : (r.sender.receive i.2 i.1).1.initialized = g.initialized ∧
      (r.sender.receive i.2 i.1).1.membership = g.membership)
    (hreported : (r.sender.receive i.2 i.1).1.reportedUnreachable =
      (g.reconcileFailureDetector i.2).1.reportedUnreachable)
    (heffects : ∀ n, (.markReachable n ∈ (r.sender.receive i.2 i.1).2 ↔
        .markReachable n ∈ (g.reconcileFailureDetector i.2).2) ∧
      (.markUnreachable n ∈ (r.sender.receive i.2 i.1).2 ↔
        .markUnreachable n ∈ (g.reconcileFailureDetector i.2).2))
    (htracked : ∀ n ∈ r.marked, g.state.Tracked i.2 n ∨ n ∈ g.newlyReachable i.2) : Inv r' := by
  refine Inv.of_turn hstep (by rw [hstate]; exact uniform) ?_ ?_ ?_
  · intro n hn _ hreach
    rw [hstate, hreported]
    have hm : g.membership = true := hmem.trans (h.ready ⟨n, hn⟩).2
    rcases htracked n hn with ht | ht
    · exact ⟨reported_of_tracked (by rw [hrep]; exact (h.tracked n hn).1) ht, ht⟩
    · exact absurd ((heffects n).1.mpr ((markReachable_mem hm).mpr ht)) hreach
  · intro n hn
    rw [hstate, hreported, hflags.1, hflags.2]
    have hn := (heffects n).2.mp hn
    cases hm : g.membership with
    | false =>
      rw [reconcile_silent hm] at hn
      exact absurd hn (notMem_empty _)
    | true =>
      have hn := (markUnreachable_mem hm).mp hn
      exact ⟨reported_of_newlyUnreachable hm hn, tracked_of_newlyUnreachable hn, hinit, rfl⟩
  · intro hne
    rw [hflags.1, hflags.2]
    exact ⟨hinit, hmem.trans (h.ready hne).2⟩

lemma heartbeat_not_mark (g : HeartbeatSender) (now : ℕ) (n : UniqueAddress) :
    .markReachable n ∉ (g.heartbeat now).2 ∧ .markUnreachable n ∉ (g.heartbeat now).2 := by
  simp [HeartbeatSender.heartbeat]

lemma Inv.of_ignored (h : Inv r) (hstep : step r i = some r')
    (hrec : r.sender.receive i.2 i.1 = (r.sender, ∅)) : Inv r' := by
  refine h.of_quiet hstep (by rw [hrec]) ?_ ?_ ?_ <;> rw [hrec]
  · exact h.uniform
  · exact fun n hr ht _ => ⟨hr, ht⟩
  · exact ⟨id, id⟩

/-- **Every turn keeps the invariant.** -/
theorem inv_step (h : Inv r) (hc : Careful r i) (hstep : step r i = some r') : Inv r' := by
  have hle : r.now ≤ i.2 := by
    unfold step at hstep
    split_ifs at hstep with hlt
    exact not_lt.mp hlt
  obtain ⟨msg, now⟩ := i
  cases msg with
  | init snapshot =>
    refine h.of_quiet hstep rfl h.uniform ?_ ⟨fun _ => rfl, id⟩
    intro n hr ht _
    exact ⟨hr, hc hr, ht.unavailable⟩
  | registerMembership =>
    exact h.of_quiet hstep rfl h.uniform (fun n hr ht _ => ⟨hr, ht⟩) ⟨id, fun _ => rfl⟩
  | registerReceiver node | unregisterReceiver node =>
    exact h.of_quiet hstep rfl h.uniform (fun n hr ht _ => ⟨hr, ht⟩) ⟨id, id⟩
  | clusterEvent event =>
    by_cases hinit : r.sender.initialized = true
    · have hrec : r.sender.receive now (.clusterEvent event) =
          (r.sender.handleClusterEvent now event, ∅) := if_pos hinit
      refine h.of_quiet hstep (by rw [hrec]) ?_ ?_ ?_
      · rw [hrec]
        exact handleClusterEvent_uniform h.uniform now event
      · intro n hr ht hring
        rw [hrec] at hring ⊢
        exact handleClusterEvent_kept hr ht event hring
      · rw [hrec]
        obtain ⟨h1, h2⟩ := handleClusterEvent_flags r.sender now event
        exact ⟨fun hi => h1.trans hi, fun hm => h2.trans hm⟩
    · exact h.of_ignored hstep (if_neg hinit)
  | expectedFirstHeartbeat sender =>
    by_cases hinit : r.sender.initialized = true
    · have hrec : r.sender.receive now (.expectedFirstHeartbeat sender) =
          ({ r.sender with state := r.sender.state.triggerExpectedFirstHeartbeat sender now }, ∅) :=
        if_pos hinit
      refine h.of_quiet hstep (by rw [hrec]) ?_ ?_ ?_ <;> rw [hrec]
      · unfold HeartbeatSenderState.triggerExpectedFirstHeartbeat
        split_ifs
        · exact h.uniform
        · exact h.uniform.heartbeat sender now
      · exact fun n hr ht _ => ⟨hr, ht.triggerExpectedFirstHeartbeat sender⟩
      · exact ⟨id, id⟩
    · exact h.of_ignored hstep (if_neg hinit)
  | heartbeatTick =>
    by_cases hinit : r.sender.initialized = true
    · have hrec : r.sender.receive now .heartbeatTick =
          (((r.sender.reconcileFailureDetector now).1.heartbeat now).1,
            (r.sender.reconcileFailureDetector now).2 ∪
              ((r.sender.reconcileFailureDetector now).1.heartbeat now).2) := if_pos hinit
      obtain ⟨hs, hi, hm⟩ := reconcile_state r.sender now
      refine h.of_reconcile hstep hinit rfl rfl h.uniform ?_ ?_ ?_ ?_ ?_
      · rw [hrec]
        exact hs
      · rw [hrec]
        exact ⟨hi, hm⟩
      · rw [hrec]
        rfl
      · intro n
        rw [hrec]
        have := heartbeat_not_mark (r.sender.reconcileFailureDetector now).1 now n
        simp only [mem_union, this.1, this.2, or_false, and_self]
      · exact fun n hn => .inl ((h.tracked n hn).2.mono hle)
    · exact h.of_ignored hstep (if_neg hinit)
  | heartbeatResponse sender =>
    by_cases hinit : r.sender.initialized = true
    · set g : HeartbeatSender :=
        { r.sender with state := r.sender.state.heartbeatResponse sender now } with hg
      have hrec : r.sender.receive now (.heartbeatResponse sender) =
          g.reconcileFailureDetector now := if_pos hinit
      obtain ⟨hs, hi, hm⟩ := reconcile_state g now
      refine h.of_reconcile (g := g) hstep hinit rfl rfl
        (uniform_heartbeatResponse h.uniform sender now) ?_ ?_ ?_ ?_ ?_
      · rw [hrec]
        exact hs
      · rw [hrec]
        exact ⟨hi, hm⟩
      · rw [hrec]
      · intro n
        rw [hrec]
        exact ⟨Iff.rfl, Iff.rfl⟩
      · intro n hn
        obtain ⟨hr, ht⟩ := h.tracked n hn
        by_cases hne : n = sender
        · subst hne
          obtain ⟨hmy, hmax⟩ := hc hr
          exact .inr (newlyReachable_response h.uniform hr hmy hmax)
        · exact .inl ((ht.mono hle).heartbeatResponse hne)
    · exact h.of_ignored hstep (if_neg hinit)

/-- **Notifications can be undone**: in every run whose turns are all careful, when a node of the ring
was last reported as unreachable, its answer is reported as reachable. -/
theorem response_marks_reachable (h : (machine selfNode settings).Reach Careful r)
    {n : UniqueAddress} (hn : n ∈ r.marked) {now : ℕ} (hc : Careful r (.heartbeatResponse n, now)) :
    .markReachable n ∈ (r.sender.receive now (.heartbeatResponse n)).2 := by
  have hinv : Inv r := by
    refine h.invariant ?_ fun s i t hs hok ht => inv_step hs hok ht
    rintro s ⟨hs, hm⟩
    refine ⟨?_, ?_, ?_⟩
    · rw [hs]
      rintro n d hd
      cases hd
    · intro n hn
      rw [hm] at hn
      exact absurd hn (notMem_empty _)
    · intro hne
      rw [hm] at hne
      exact absurd hne not_nonempty_empty
  obtain ⟨hinit, hmem⟩ := hinv.ready ⟨n, hn⟩
  obtain ⟨hr, -⟩ := hinv.tracked n hn
  obtain ⟨hmy, hmax⟩ := hc hr
  show _ ∈ (ite _ _ _ : HeartbeatSender.Outcome).2
  rw [if_pos hinit]
  refine (markReachable_mem ?_).mpr (newlyReachable_response hinv.uniform hr hmy hmax)
  exact hmem

end HeartbeatUndo

/-! ## A receiver that has rotated out -/

namespace RotatedOut

open HeartbeatUndo

def a : UniqueAddress := .localTo "a" 1
def b : UniqueAddress := .localTo "b" 2
def c : UniqueAddress := .localTo "c" 3

/-- One receiver is monitored, with a heartbeat each second and a pause of three seconds. -/
def settings : HeartbeatSenderSettings := ⟨1, ⟨10 ^ 9, 3 * 10 ^ 9, by decide⟩, 10 ^ 9⟩

def start : Run := ⟨.new a settings, 0, ∅⟩

/-- The nodes `a` and `b` are up, and `b` does not answer. -/
def missed : List (HeartbeatSenderMsg × ℕ) :=
  [(.init (.fromGossip (.allUp ["a", "b"]) a), 0), (.registerMembership, 0),
    (.expectedFirstHeartbeat b, 10 ^ 9), (.heartbeatTick, 6 * 10 ^ 9)]

/-- A third node joins and takes the place of `b` in the ring. -/
def rotated : List (HeartbeatSenderMsg × ℕ) :=
  missed ++ [(.clusterEvent (.member (.joined (Member.new c []))), 6 * 10 ^ 9)]

/-- The answer of `b` is not reported, though `b` is in the ring and was reported as unreachable. -/
theorem silent_response :
    ∃ r, (machine a settings).Reachable r ∧ b ∈ r.sender.state.ring.nodes ∧ b ∈ r.marked ∧
      .markReachable b ∉ (r.sender.receive (7 * 10 ^ 9) (.heartbeatResponse b)).2 :=
  Machine.Reach.exists_of_exec (s := start) rotated ⟨rfl, rfl⟩ (by decide +kernel)

/-- While `b` is in place its answer is reported. -/
theorem reported_response :
    ∃ r, (machine a settings).Reach Careful r ∧ b ∈ r.marked ∧
      .markReachable b ∈ (r.sender.receive (7 * 10 ^ 9) (.heartbeatResponse b)).2 := by
  obtain ⟨r, hr, hm, hc⟩ := Machine.Reach.exists_of_exec (M := machine a settings) (s := start)
    (c := Careful) (P := fun r => b ∈ r.marked ∧ Careful r (.heartbeatResponse b, 7 * 10 ^ 9))
    missed ⟨rfl, rfl⟩ (by decide +kernel)
  exact ⟨r, hr, hm, response_marks_reachable hr hm hc⟩

end RotatedOut

end Kairo.Cluster
