import Kairo.Cluster.EventDiff
import Kairo.Lib.Around

/-!
# Heartbeats and failure detection

The deadline failure detector, the ring that selects which nodes the local node monitors, and the
actor that sends heartbeats, watches the responses and tells the membership actor what it concludes.
Times are nanoseconds of the monotonic clock.  A turn returns the set of its effects: the source
iterates over hash sets, so their order is not determined.
-/

namespace Kairo.Cluster

open Kairo.Lib Finset FinMap

/-! ## Deadline failure detector -/

/-- The largest duration: 64-bit seconds and a nanosecond part. -/
def durationMax : ℕ := 2 ^ 64 * 10 ^ 9 - 1

structure DeadlineFailureDetectorSettings where
  heartbeatInterval : ℕ
  acceptableHeartbeatPause : ℕ
  heartbeatInterval_pos : 0 < heartbeatInterval
  deriving DecidableEq

def DeadlineFailureDetectorSettings.deadline (s : DeadlineFailureDetectorSettings) : ℕ :=
  s.heartbeatInterval + s.acceptableHeartbeatPause

structure DeadlineFailureDetector where
  settings : DeadlineFailureDetectorSettings
  latestHeartbeatAt : Option ℕ
  deriving DecidableEq

namespace DeadlineFailureDetector

def new (settings : DeadlineFailureDetectorSettings) : DeadlineFailureDetector := ⟨settings, none⟩

variable (d : DeadlineFailureDetector)

def heartbeat (now : ℕ) : DeadlineFailureDetector :=
  { d with latestHeartbeatAt := some now }

/-- A deadline that cannot be represented counts as missed. -/
def isAvailable (now : ℕ) : Bool :=
  match d.latestHeartbeatAt with
  | none => true
  | some latest =>
    decide (latest + d.settings.deadline ≤ durationMax) && decide (now < latest + d.settings.deadline)

def isMonitoring : Bool := d.latestHeartbeatAt.isSome

lemma isAvailable_mono {d : DeadlineFailureDetector} {now now' : ℕ} (h : now ≤ now')
    (ha : d.isAvailable now = false) : d.isAvailable now' = false := by
  unfold isAvailable at ha ⊢
  split at ha
  · cases ha
  · simp only [Bool.and_eq_false_iff, decide_eq_false_iff_not, not_lt, not_le] at ha ⊢
    omega

lemma isMonitoring_of_not_isAvailable {d : DeadlineFailureDetector} {now : ℕ}
    (ha : d.isAvailable now = false) : d.isMonitoring = true := by
  unfold isAvailable at ha
  split at ha
  · cases ha
  · rename_i h
    rw [isMonitoring, h]
    rfl

end DeadlineFailureDetector

structure FailureDetectorRegistry where
  settings : DeadlineFailureDetectorSettings
  detectors : FinMap UniqueAddress DeadlineFailureDetector
  deriving DecidableEq

namespace FailureDetectorRegistry

def new (settings : DeadlineFailureDetectorSettings) : FailureDetectorRegistry := ⟨settings, ∅⟩

def heartbeat (r : FailureDetectorRegistry) (node : UniqueAddress) (now : ℕ) :
    FailureDetectorRegistry :=
  { r with
    detectors := r.detectors.insert node
      (((r.detectors.lookup node).getD (.new r.settings)).heartbeat now) }

def isAvailable (r : FailureDetectorRegistry) (node : UniqueAddress) (now : ℕ) : Bool :=
  ((r.detectors.lookup node).map (·.isAvailable now)).getD true

def isMonitoring (r : FailureDetectorRegistry) (node : UniqueAddress) : Bool :=
  ((r.detectors.lookup node).map (·.isMonitoring)).getD false

def remove (r : FailureDetectorRegistry) (node : UniqueAddress) : FailureDetectorRegistry :=
  { r with detectors := r.detectors.erase node }

def reset (r : FailureDetectorRegistry) : FailureDetectorRegistry := { r with detectors := ∅ }

variable {r : FailureDetectorRegistry} {n node : UniqueAddress} {now now' : ℕ}

lemma isAvailable_congr {r' : FailureDetectorRegistry}
    (h : r'.detectors.lookup n = r.detectors.lookup n) (now : ℕ) :
    r'.isAvailable n now = r.isAvailable n now := by
  rw [isAvailable, isAvailable, h]

lemma isAvailable_mono (h : now ≤ now') (ha : r.isAvailable n now = false) :
    r.isAvailable n now' = false := by
  unfold isAvailable at ha ⊢
  cases hd : r.detectors.lookup n with
  | none => rw [hd] at ha; cases ha
  | some d =>
    rw [hd] at ha
    exact DeadlineFailureDetector.isAvailable_mono h ha

lemma isMonitoring_of_not_isAvailable (ha : r.isAvailable n now = false) :
    r.isMonitoring n = true := by
  unfold isAvailable at ha
  unfold isMonitoring
  cases hd : r.detectors.lookup n with
  | none => rw [hd] at ha; cases ha
  | some d =>
    rw [hd] at ha
    exact DeadlineFailureDetector.isMonitoring_of_not_isAvailable ha

lemma lookup_heartbeat_of_ne (h : n ≠ node) :
    (r.heartbeat node now).detectors.lookup n = r.detectors.lookup n := by
  rw [heartbeat, lookup_insert, if_neg h]

lemma lookup_remove_of_ne (h : n ≠ node) :
    (r.remove node).detectors.lookup n = r.detectors.lookup n := by
  rw [remove, lookup_erase, if_neg h]

/-- All detectors of the registry have its settings. -/
def Uniform (r : FailureDetectorRegistry) : Prop :=
  ∀ n d, r.detectors.lookup n = some d → d.settings = r.settings

lemma Uniform.heartbeat (h : r.Uniform) (node : UniqueAddress) (now : ℕ) :
    (r.heartbeat node now).Uniform := by
  intro n d hd
  rcases of_lookup_insert hd with ⟨-, rfl⟩ | hd
  · cases hl : r.detectors.lookup node with
    | none => rfl
    | some d => exact h node d hl
  · exact h n d hd

lemma Uniform.remove (h : r.Uniform) (node : UniqueAddress) : (r.remove node).Uniform := by
  intro n d hd
  exact h n d (of_lookup_erase hd)

/-- A heartbeat makes its node available, unless the deadline overflows. -/
lemma isAvailable_heartbeat (h : r.Uniform) (hmax : now + r.settings.deadline ≤ durationMax) :
    (r.heartbeat node now).isAvailable node now = true := by
  have hs : ((r.detectors.lookup node).getD (.new r.settings)).settings = r.settings := by
    cases hl : r.detectors.lookup node with
    | none => rfl
    | some d => exact h node d hl
  have hpos := r.settings.heartbeatInterval_pos
  rw [isAvailable, heartbeat, Finmap.lookup_insert, Option.map_some, Option.getD_some]
  unfold DeadlineFailureDetector.isAvailable DeadlineFailureDetector.heartbeat
  rw [hs, Bool.and_eq_true, decide_eq_true_eq, decide_eq_true_eq]
  refine ⟨hmax, ?_⟩
  unfold DeadlineFailureDetectorSettings.deadline
  omega

lemma isMonitoring_heartbeat : (r.heartbeat node now).isMonitoring node = true := by
  rw [isMonitoring, heartbeat, Finmap.lookup_insert]
  rfl

end FailureDetectorRegistry

/-! ## The ring -/

/-- The 64-bit FNV-1a hash. -/
def stableHash64 (bytes : List UInt8) : ℕ :=
  bytes.foldl (fun hash byte => ((hash ^^^ byte.toNat) * 0x100000001b3) % 2 ^ 64) 0xcbf29ce484222325

def heartbeatRingKey (node : UniqueAddress) : ℕ ×ₗ String :=
  toLex (stableHash64 node.orderingKey.toUTF8.toList, node.orderingKey)

/-- The nodes are listed once each. -/
structure HeartbeatNodeRing where
  selfNode : UniqueAddress
  nodes : List UniqueAddress
  unreachable : Finset UniqueAddress
  monitoredByNrOfMembers : ℕ
  deriving DecidableEq

namespace HeartbeatNodeRing

def sortedRing (r : HeartbeatNodeRing) : List UniqueAddress :=
  r.nodes.insertionSort fun a b => heartbeatRingKey a ≤ heartbeatRingKey b

/-- The walk along the ring: unreachable nodes are selected on the way without being counted, as long
as not enough nodes are selected. -/
def select (unreachable : Finset UniqueAddress) (monitored : ℕ) :
    List UniqueAddress → ℕ → Finset UniqueAddress → Finset UniqueAddress
  | [], _, selected => selected
  | _ :: _, 0, selected => selected
  | node :: rest, reachableRemaining + 1, selected =>
    if node ∈ unreachable ∧ monitored ≤ selected.card then
      select unreachable monitored rest (reachableRemaining + 1) selected
    else
      select unreachable monitored rest
        (if node ∈ unreachable then reachableRemaining + 1 else reachableRemaining)
        (insert node selected)

def receivers (r : HeartbeatNodeRing) (sender : UniqueAddress) : Finset UniqueAddress :=
  let ring := r.sortedRing
  if ring.length - 1 ≤ r.monitoredByNrOfMembers then (ring.filter (· ≠ sender)).toFinset
  else if sender ∈ ring then
    select r.unreachable r.monitoredByNrOfMembers
      ((ring.rotate (ring.idxOf sender + 1)).take (ring.length - 1)) r.monitoredByNrOfMembers ∅
  else ∅

def myReceivers (r : HeartbeatNodeRing) : Finset UniqueAddress := r.receivers r.selfNode

def addNode (r : HeartbeatNodeRing) (node : UniqueAddress) : HeartbeatNodeRing :=
  if node ∈ r.nodes then r else { r with nodes := r.nodes ++ [node] }

def removeNode (r : HeartbeatNodeRing) (node : UniqueAddress) : HeartbeatNodeRing :=
  { r with nodes := r.nodes.filter (· ≠ node), unreachable := r.unreachable.erase node }

def withUnreachable (r : HeartbeatNodeRing) (node : UniqueAddress) : HeartbeatNodeRing :=
  { r with unreachable := insert node r.unreachable }

def withReachable (r : HeartbeatNodeRing) (node : UniqueAddress) : HeartbeatNodeRing :=
  { r with unreachable := r.unreachable.erase node }

/-! ### What the ring covers -/

section

variable (unreachable selected : Finset UniqueAddress) (walk : List UniqueAddress)
  (monitored remaining : ℕ)

lemma select_subset :
    select unreachable monitored walk remaining selected ⊆ selected ∪ walk.toFinset := by
  fun_induction select unreachable monitored walk remaining selected with
  | case1 | case2 => exact subset_union_left
  | case3 node rest remaining selected _ ih =>
    exact ih.trans (union_subset_union_right (by simp))
  | case4 node rest remaining selected _ ih =>
    refine ih.trans ?_
    rw [List.toFinset_cons, insert_union, union_insert]

/-- The unreachable nodes on the way do not take the place of reachable ones. -/
lemma filter_select :
    (select unreachable monitored walk remaining selected).filter (· ∉ unreachable) =
      selected.filter (· ∉ unreachable) ∪
        ((walk.filter (· ∉ unreachable)).take remaining).toFinset := by
  fun_induction select unreachable monitored walk remaining selected with
  | case1 | case2 => simp
  | case3 node rest remaining selected h ih =>
    rw [ih, List.filter_cons_of_neg (by simpa using h.1)]
  | case4 node rest remaining selected h ih =>
    rw [ih]
    by_cases hn : node ∈ unreachable
    · rw [if_pos hn, List.filter_cons_of_neg (by simpa using hn),
        filter_insert, if_neg (not_not.mpr hn)]
    · rw [if_neg hn, List.filter_cons_of_pos (by simpa using hn), List.take_succ_cons,
        List.toFinset_cons, filter_insert, if_pos hn, insert_union, union_insert]

end

section Cover

variable (r : HeartbeatNodeRing) (hnodes : r.nodes.Nodup)

/-- The other reachable nodes, clockwise after a node. -/
def reachableAfter (node : UniqueAddress) : List UniqueAddress :=
  (around r.sortedRing node).filter (· ∉ r.unreachable)

lemma sortedRing_perm : r.sortedRing.Perm r.nodes := List.perm_insertionSort _ _

variable {r} {sender : UniqueAddress}

include hnodes

lemma around_sortedRing_perm (hs : sender ∈ r.nodes) :
    (around r.sortedRing sender).Perm (r.nodes.erase sender) :=
  (around_perm (r.sortedRing_perm.nodup_iff.mpr hnodes) (r.sortedRing_perm.mem_iff.mpr hs)).trans
    (r.sortedRing_perm.erase sender)

lemma sender_notMem_receivers (hs : sender ∈ r.nodes) : sender ∉ r.receivers sender := by
  rw [receivers]
  split_ifs with hk hm
  · simp
  · intro h
    have h := select_subset _ _ _ _ _ h
    rw [empty_union, List.mem_toFinset] at h
    exact hnodes.not_mem_erase ((around_sortedRing_perm hnodes hs).mem_iff.mp h)
  · exact notMem_empty _

lemma reachable_receivers (hs : sender ∈ r.nodes) :
    (r.receivers sender).filter (· ∉ r.unreachable) =
      ((r.reachableAfter sender).take r.monitoredByNrOfMembers).toFinset := by
  have hp := around_sortedRing_perm hnodes hs
  rw [receivers]
  split_ifs with hk hm
  · -- all nodes are monitored
    have hlen : (r.reachableAfter sender).length ≤ r.monitoredByNrOfMembers := by
      refine (List.length_filter_le _ _).trans (le_trans (le_of_eq ?_) hk)
      rw [hp.length_eq, List.length_erase_of_mem hs, r.sortedRing_perm.length_eq]
    rw [List.take_of_length_le hlen, reachableAfter]
    ext node
    simp [hp.mem_iff, hnodes.mem_erase_iff, r.sortedRing_perm.mem_iff]
    tauto
  · rw [filter_select, filter_empty, empty_union]
    rfl
  · exact absurd (r.sortedRing_perm.mem_iff.mpr hs) hm

/-- No node is its own receiver, the reachable receivers of a node are the next reachable ones of the
ring, and each reachable node is monitored by as many reachable nodes as it monitors. -/
theorem receivers_cover :
    (∀ sender ∈ r.nodes, sender ∉ r.receivers sender ∧
      (r.receivers sender).filter (· ∉ r.unreachable) =
        ((r.reachableAfter sender).take (min r.monitoredByNrOfMembers
          ((r.nodes.erase sender).filter (· ∉ r.unreachable)).length)).toFinset) ∧
    ∀ node ∈ r.nodes, node ∉ r.unreachable →
      (r.nodes.toFinset.filter fun sender =>
          sender ∉ r.unreachable ∧ node ∈ r.receivers sender).card =
        min r.monitoredByNrOfMembers ((r.nodes.filter (· ∉ r.unreachable)).length - 1) := by
  refine ⟨fun sender hs => ⟨sender_notMem_receivers hnodes hs, ?_⟩, fun node hn hr => ?_⟩
  · have hlen := ((around_sortedRing_perm hnodes hs).filter (· ∉ r.unreachable)).length_eq
    rw [reachable_receivers hnodes hs, ← hlen]
    congr 1
    exact List.take_eq_take_min
  · have hp := r.sortedRing_perm.filter (· ∉ r.unreachable)
    have hring := (hp.nodup_iff.mpr (hnodes.filter _))
    rw [← hp.length_eq, ← card_mem_take_around hring
      (List.mem_filter.mpr ⟨r.sortedRing_perm.mem_iff.mpr hn, by simpa using hr⟩)]
    congr 1
    ext sender
    simp only [mem_filter, List.mem_toFinset, hp.mem_iff, List.mem_filter,
      decide_eq_true_eq, and_assoc]
    refine and_congr_right fun hs => and_congr_right fun hsr => ?_
    have hmem : node ∈ r.receivers sender ↔
        node ∈ (r.receivers sender).filter (· ∉ r.unreachable) := by
      rw [mem_filter, and_iff_left hr]
    rw [hmem, reachable_receivers hnodes hs, List.mem_toFinset, reachableAfter,
      filter_around (r.sortedRing_perm.nodup_iff.mpr hnodes) (r.sortedRing_perm.mem_iff.mpr hs)
        (by simpa using hsr)]

end Cover

/-- Three nodes with one receiver each; the last node is unreachable. -/
def oneUnreachable : HeartbeatNodeRing where
  selfNode := .localTo "kairo" 1
  nodes := [.localTo "kairo" 1, .localTo "kairo" 2, .localTo "kairo" 3]
  unreachable := {.localTo "kairo" 3}
  monitoredByNrOfMembers := 1

theorem receivers_cover_oneUnreachable :
    oneUnreachable.nodes.Nodup ∧
      (oneUnreachable.nodes.toFinset.filter fun sender => sender ∉ oneUnreachable.unreachable ∧
        oneUnreachable.selfNode ∈ oneUnreachable.receivers sender).card = 1 := by
  have hnodes : oneUnreachable.nodes.Nodup := by decide
  exact ⟨hnodes, (receivers_cover hnodes).2 _ (by decide) (by decide)⟩

end HeartbeatNodeRing

/-! ## The sender's state -/

structure HeartbeatSenderState where
  ring : HeartbeatNodeRing
  oldReceiversNowUnreachable : Finset UniqueAddress
  failureDetector : FailureDetectorRegistry
  deriving DecidableEq

namespace HeartbeatSenderState

def new (selfNode : UniqueAddress) (monitoredByNrOfMembers : ℕ)
    (settings : DeadlineFailureDetectorSettings) : HeartbeatSenderState where
  ring := ⟨selfNode, [selfNode], ∅, monitoredByNrOfMembers⟩
  oldReceiversNowUnreachable := ∅
  failureDetector := .new settings

variable (s : HeartbeatSenderState)

def activeReceivers : Finset UniqueAddress :=
  s.ring.myReceivers ∪ s.oldReceiversNowUnreachable

def contains (node : UniqueAddress) : Bool := decide (node ∈ s.ring.nodes)

def init (nodes : List UniqueAddress) (unreachable : Finset UniqueAddress) : HeartbeatSenderState :=
  { s with
    ring := { s.ring with
      nodes := (if s.ring.selfNode ∈ nodes then nodes else nodes ++ [s.ring.selfNode]).dedup
      unreachable := unreachable } }

/-- Receivers that drop out of the ring selection are forgotten when they are available and kept as
old receivers otherwise. -/
def membershipChange (newRing : HeartbeatNodeRing) (now : ℕ) : HeartbeatSenderState :=
  let removedReceivers := s.ring.myReceivers \ newRing.myReceivers
  { ring := newRing
    oldReceiversNowUnreachable := s.oldReceiversNowUnreachable ∪
      removedReceivers.filter (!s.failureDetector.isAvailable · now)
    failureDetector := { s.failureDetector with
      detectors := FinMap.retain
        (fun n => !(decide (n ∈ removedReceivers) && s.failureDetector.isAvailable n now))
        s.failureDetector.detectors } }

def addMember (node : UniqueAddress) (now : ℕ) : HeartbeatSenderState :=
  s.membershipChange (s.ring.addNode node) now

def removeMember (node : UniqueAddress) (now : ℕ) : HeartbeatSenderState :=
  let changed := s.membershipChange (s.ring.removeNode node) now
  { changed with
    failureDetector := changed.failureDetector.remove node
    oldReceiversNowUnreachable := changed.oldReceiversNowUnreachable.erase node }

def unreachableMember (node : UniqueAddress) (now : ℕ) : HeartbeatSenderState :=
  s.membershipChange (s.ring.withUnreachable node) now

def reachableMember (node : UniqueAddress) (now : ℕ) : HeartbeatSenderState :=
  s.membershipChange (s.ring.withReachable node) now

def heartbeatResponse (sender : UniqueAddress) (now : ℕ) : HeartbeatSenderState :=
  if sender ∉ s.activeReceivers then s
  else
    let failureDetector := s.failureDetector.heartbeat sender now
    { s with
      oldReceiversNowUnreachable := s.oldReceiversNowUnreachable.erase sender
      failureDetector :=
        if sender ∈ s.oldReceiversNowUnreachable ∧ sender ∉ s.ring.myReceivers then
          failureDetector.remove sender
        else failureDetector }

def triggerExpectedFirstHeartbeat (sender : UniqueAddress) (now : ℕ) : HeartbeatSenderState :=
  if sender ∉ s.activeReceivers ∨ s.failureDetector.isMonitoring sender then s
  else { s with failureDetector := s.failureDetector.heartbeat sender now }

def resetFailureDetector : HeartbeatSenderState :=
  { s with failureDetector := s.failureDetector.reset, oldReceiversNowUnreachable := ∅ }

end HeartbeatSenderState

/-! ## The actor -/

structure HeartbeatSenderSettings where
  monitoredByNrOfMembers : ℕ
  failureDetector : DeadlineFailureDetectorSettings
  heartbeatExpectedResponseAfter : ℕ
  deriving DecidableEq

inductive HeartbeatSenderMsg
  | init (snapshot : CurrentClusterState)
  | registerMembership
  | registerReceiver (node : UniqueAddress)
  | unregisterReceiver (node : UniqueAddress)
  | clusterEvent (event : ClusterEvent)
  | heartbeatTick
  | heartbeatResponse (sender : UniqueAddress)
  | expectedFirstHeartbeat (sender : UniqueAddress)
  deriving DecidableEq

inductive HeartbeatEffect
  | markUnreachable (subject : UniqueAddress)
  | markReachable (subject : UniqueAddress)
  | heartbeat (receiver : UniqueAddress) (sequenceNr creationTimeNanos : ℕ)
  | scheduleExpectedFirstHeartbeat (delay : ℕ) (receiver : UniqueAddress)
  deriving DecidableEq

structure HeartbeatSender where
  selfNode : UniqueAddress
  settings : HeartbeatSenderSettings
  state : HeartbeatSenderState
  /-- The nodes with a registered receiver. -/
  routes : Finset UniqueAddress
  sequenceNr : ℕ
  initialized : Bool
  /-- A membership actor is registered. -/
  membership : Bool
  reportedUnreachable : Finset UniqueAddress
  deriving DecidableEq

namespace HeartbeatSender

def new (selfNode : UniqueAddress) (settings : HeartbeatSenderSettings) : HeartbeatSender where
  selfNode := selfNode
  settings := settings
  state := .new selfNode settings.monitoredByNrOfMembers settings.failureDetector
  routes := ∅
  sequenceNr := 0
  initialized := false
  membership := false
  reportedUnreachable := ∅

abbrev Outcome := HeartbeatSender × Finset HeartbeatEffect

def addMember (h : HeartbeatSender) (m : Member) (now : ℕ) : HeartbeatSender :=
  if m.uniqueAddress ≠ h.selfNode ∧ !h.state.contains m.uniqueAddress then
    { h with state := h.state.addMember m.uniqueAddress now }
  else h

def removeMember (h : HeartbeatSender) (m : Member) (now : ℕ) : HeartbeatSender :=
  if m.uniqueAddress ≠ h.selfNode then
    { h with
      state := h.state.removeMember m.uniqueAddress now
      routes := h.routes.erase m.uniqueAddress
      reportedUnreachable := h.reportedUnreachable.erase m.uniqueAddress }
  else h

def handleClusterEvent (h : HeartbeatSender) (now : ℕ) : ClusterEvent → HeartbeatSender
  | .member (.removed m _) => h.removeMember m now
  | .member e => h.addMember e.member now
  | .reachability (.unreachable m) =>
    { h with state := h.state.unreachableMember m.uniqueAddress now }
  | .reachability (.reachable m) => { h with state := h.state.reachableMember m.uniqueAddress now }
  | _ => h

/-- The monitored receivers that missed their deadline and have not been reported. -/
def newlyUnreachable (h : HeartbeatSender) (now : ℕ) : Finset UniqueAddress :=
  h.state.activeReceivers.filter fun n =>
    h.state.failureDetector.isMonitoring n ∧ !h.state.failureDetector.isAvailable n now ∧
      n ∉ h.reportedUnreachable

/-- The reported receivers that are available again. -/
def newlyReachable (h : HeartbeatSender) (now : ℕ) : Finset UniqueAddress :=
  h.state.activeReceivers.filter fun n =>
    h.state.failureDetector.isMonitoring n ∧ h.state.failureDetector.isAvailable n now ∧
      n ∈ h.reportedUnreachable

def reconcileFailureDetector (h : HeartbeatSender) (now : ℕ) : Outcome :=
  if !h.membership then (h, ∅)
  else
    ({ h with reportedUnreachable :=
        (h.reportedUnreachable ∩ h.state.activeReceivers ∪ h.newlyUnreachable now) \
          h.newlyReachable now },
      (h.newlyUnreachable now).image .markUnreachable ∪
        (h.newlyReachable now).image .markReachable)

def heartbeat (h : HeartbeatSender) (now : ℕ) : Outcome :=
  let sequenceNr := h.sequenceNr + 1
  ({ h with sequenceNr := sequenceNr },
    (h.state.activeReceivers.filter fun n => !h.state.failureDetector.isMonitoring n).image
        (.scheduleExpectedFirstHeartbeat h.settings.heartbeatExpectedResponseAfter) ∪
      (h.state.activeReceivers ∩ h.routes).image fun n =>
        .heartbeat n sequenceNr (min now u64Max))

def init (h : HeartbeatSender) (snapshot : CurrentClusterState) : HeartbeatSender :=
  { h with
    state := h.state.init (snapshot.members.map (·.uniqueAddress))
      (snapshot.unreachable.map (·.uniqueAddress)).toFinset
    initialized := true }

def receive (h : HeartbeatSender) (now : ℕ) : HeartbeatSenderMsg → Outcome
  | .init snapshot => (h.init snapshot, ∅)
  | .registerMembership => ({ h with membership := true }, ∅)
  | .registerReceiver node => ({ h with routes := insert node h.routes }, ∅)
  | .unregisterReceiver node => ({ h with routes := h.routes.erase node }, ∅)
  | .clusterEvent event => if h.initialized then (h.handleClusterEvent now event, ∅) else (h, ∅)
  | .heartbeatTick =>
    if h.initialized then
      let (h, marks) := h.reconcileFailureDetector now
      let (h, sent) := h.heartbeat now
      (h, marks ∪ sent)
    else (h, ∅)
  | .heartbeatResponse sender =>
    if h.initialized then
      { h with state := h.state.heartbeatResponse sender now }.reconcileFailureDetector now
    else (h, ∅)
  | .expectedFirstHeartbeat sender =>
    if h.initialized then
      ({ h with state := h.state.triggerExpectedFirstHeartbeat sender now }, ∅)
    else (h, ∅)

end HeartbeatSender

end Kairo.Cluster
