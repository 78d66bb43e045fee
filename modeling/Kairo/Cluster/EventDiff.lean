import Kairo.Cluster.Events
import Kairo.Cluster.LeaderActions

/-!
# Cluster events between two gossips

`ClusterEvents.diff` reports what changed between two gossips of one node, in publication order, and
`CurrentClusterState.fromGossip` is the snapshot a new subscriber gets.  Where the source iterates over
a hash set the order of the elements is that of their first source here; it sorts the events anyway.
-/

namespace Kairo.Cluster

open Kairo.Lib List ReachabilityRecord

inductive ReachabilityEvent
  | unreachable (member : Member)
  | reachable (member : Member)
  deriving DecidableEq, Repr

inductive ClusterEvent
  | member (event : MemberEvent)
  | reachability (event : ReachabilityEvent)
  | leaderChanged (leader : Option UniqueAddress)
  | roleLeaderChanged (role : String) (leader : Option UniqueAddress)
  | seenChanged (converged : Bool) (seenBy : Finset UniqueAddress)
  | reachabilityChanged (reachability : Reachability)
  | memberTombstonesChanged (tombstones : Finset UniqueAddress)
  deriving DecidableEq

/-- The oldest reachable eligible member with a role. -/
def LeaderSelection.forRole (g : Gossip) (self : UniqueAddress) (role : String) :
    Option UniqueAddress :=
  forMembers g self (g.members.filter (·.hasRole role))

namespace Reachability

def negativeSubjects (r : Reachability) : List UniqueAddress :=
  ((r.records.filter (·.isNegative)).map (·.subject)).dedup

/-- The subjects reported unreachable and terminated by nobody. -/
def allUnreachable (r : Reachability) : List UniqueAddress :=
  let terminated := (r.records.filter (·.status = .terminated)).map (·.subject)
  (((r.records.filter (·.status = .unreachable)).map (·.subject)).filter (· ∉ terminated)).dedup

variable {x : UniqueAddress} {r : Reachability}

lemma mem_negativeSubjects : x ∈ r.negativeSubjects ↔ x ∈ r.allUnreachableOrTerminated := by
  simp [negativeSubjects, allUnreachableOrTerminated]

lemma statusOf_eq_reachable_iff :
    r.statusOf x = .reachable ↔ x ∉ r.allUnreachableOrTerminated := by
  rw [mem_allUnreachableOrTerminated]
  unfold statusOf
  constructor
  · intro h
    split_ifs at h with h1 h2
    rintro ⟨y, hy, hn, hs⟩
    simp only [any_eq_true, decide_eq_true_eq, not_exists, not_and] at h1 h2
    cases hst : y.status with
    | reachable => simp [isNegative, hst] at hn
    | unreachable => exact h2 y hy hs hst
    | terminated => exact h1 y hy hs hst
  · intro h
    have no : ∀ st, st ≠ .reachable →
        ¬ r.records.any (fun y => decide (y.subject = x ∧ y.status = st)) = true := by
      intro st hst ha
      obtain ⟨y, hy, he⟩ := any_eq_true.mp ha
      obtain ⟨hs, he⟩ := of_decide_eq_true he
      refine h ⟨y, hy, ?_, hs⟩
      cases st <;> simp_all [isNegative]
    rw [if_neg (no .terminated (by simp)), if_neg (no .unreachable (by simp))]

lemma mem_allUnreachable :
    x ∈ r.allUnreachable ↔ x ∈ r.allUnreachableOrTerminated ∧ r.statusOf x ≠ .terminated := by
  have hterm : r.statusOf x ≠ .terminated ↔
      ∀ y ∈ r.records, y.subject = x → y.status ≠ .terminated := by
    unfold statusOf
    split_ifs with h1 h2
    · obtain ⟨y, hy, he⟩ := any_eq_true.mp h1
      obtain ⟨hs, he⟩ := of_decide_eq_true he
      exact ⟨fun h => absurd rfl h, fun h => absurd he (h y hy hs)⟩
    all_goals
      simp only [any_eq_true, decide_eq_true_eq, not_exists, not_and] at h1
      exact ⟨fun _ y hy hs => h1 y hy hs, fun _ => by simp⟩
  rw [hterm, mem_allUnreachableOrTerminated]
  simp only [allUnreachable, mem_dedup, mem_filter, mem_map, decide_eq_true_eq,
    not_exists, not_and, and_imp]
  constructor
  · rintro ⟨⟨y, ⟨hy, hst⟩, hs⟩, hno⟩
    exact ⟨⟨y, hy, by simp [isNegative, hst], hs⟩,
      fun z hz hzs hzt => hno z hz hzt hzs⟩
  · rintro ⟨⟨y, hy, hn, hs⟩, hno⟩
    refine ⟨⟨y, ⟨hy, ?_⟩, hs⟩, fun z hz hzt hzs => hno z hz hzs hzt⟩
    cases hst : y.status with
    | reachable => simp [isNegative, hst] at hn
    | unreachable => rfl
    | terminated => exact absurd hst (hno y hy hs)

end Reachability

/-! ## The difference of two gossips -/

namespace ClusterEvents

def eventNodeKey : ClusterEvent → String
  | .member e => e.node.orderingKey
  | .reachability (.unreachable m) | .reachability (.reachable m) => m.uniqueAddress.orderingKey
  | .leaderChanged leader => (leader.map (·.orderingKey)).getD ""
  | .roleLeaderChanged role _ => role
  | .seenChanged _ _ | .reachabilityChanged _ | .memberTombstonesChanged _ => ""

/-- Stable order of events by the node they are about. -/
def sortByNodeKey (es : List ClusterEvent) : List ClusterEvent :=
  es.insertionSort fun a b => eventNodeKey a ≤ eventNodeKey b

lemma mem_sortByNodeKey {es : List ClusterEvent} {e : ClusterEvent} :
    e ∈ sortByNodeKey es ↔ e ∈ es :=
  (perm_insertionSort _ _).mem_iff

def memberEventForStatus (m : Member) : Option MemberEvent :=
  match m.status with
  | .joining => some (.joined m)
  | .weaklyUp => some (.weaklyUp m)
  | .up => some (.up m)
  | .leaving => some (.left m)
  | .exiting => some (.exited m)
  | .down => some (.downed m)
  | .removed => none

variable (old new : Gossip)

def diffTombstones : List ClusterEvent :=
  if old.tombstones = new.tombstones then [] else [.memberTombstonesChanged new.tombstones.keys]

/-- The removal of a member that the new gossip does not have. -/
def removedEvent (new : Gossip) (m : Member) : Option ClusterEvent :=
  if new.hasMember m.uniqueAddress then none
  else some (.member (.removed (m.withStatus .removed) m.status))

/-- The event of a member that is new or has another status or up number. -/
def changedEvent (old : Gossip) (m : Member) : Option ClusterEvent :=
  match old.member m.uniqueAddress with
  | none => (memberEventForStatus m).map .member
  | some o =>
    if o.status ≠ m.status ∨ o.upNumber ≠ m.upNumber then (memberEventForStatus m).map .member
    else none

def diffMemberEvents : List ClusterEvent :=
  sortByNodeKey (old.members.filterMap (removedEvent new)) ++
    sortByNodeKey (new.members.filterMap (changedEvent old))

def diffUnreachable (self : UniqueAddress) : List ClusterEvent :=
  let oldUnreachable := old.reachability.allUnreachableOrTerminated
  sortByNodeKey ((new.reachability.negativeSubjects.filter fun n =>
      n ≠ self ∧ n ∉ oldUnreachable).filterMap fun n =>
    (new.member n).map fun m => .reachability (.unreachable m))

def diffReachable (self : UniqueAddress) : List ClusterEvent :=
  sortByNodeKey ((old.reachability.allUnreachable.filter fun n =>
      n ≠ self ∧ new.reachability.statusOf n = .reachable).filterMap fun n =>
    (new.member n).map fun m => .reachability (.reachable m))

def diffLeader (self : UniqueAddress) : List ClusterEvent :=
  let newLeader := LeaderSelection.forGossip new self
  if LeaderSelection.forGossip old self = newLeader then [] else [.leaderChanged newLeader]

def gossipRoles (g : Gossip) : Finset String := (g.members.flatMap (·.roles)).toFinset

def diffRoleLeaders (self : UniqueAddress) : List ClusterEvent :=
  (ordered (gossipRoles old ∪ gossipRoles new)).filterMap fun role =>
    let newLeader := LeaderSelection.forRole new self role
    if LeaderSelection.forRole old self role ≠ newLeader then some (.roleLeaderChanged role newLeader)
    else none

def isConverged (g : Gossip) (self : UniqueAddress) : Bool :=
  (Convergence.checkWithExitingConfirmed g self ∅).isEmpty

def diffSeen (self : UniqueAddress) : List ClusterEvent :=
  if isConverged old self = isConverged new self ∧ old.seen = new.seen then []
  else [.seenChanged (isConverged new self) new.seen]

def diffReachability : List ClusterEvent :=
  if old.reachability = new.reachability then [] else [.reachabilityChanged new.reachability]

/-- The observable changes from `old` to `new`, in publication order. -/
def diff (self : UniqueAddress) : List ClusterEvent :=
  diffTombstones old new ++ diffMemberEvents old new ++ diffUnreachable old new self ++
    diffReachable old new self ++ diffLeader old new self ++ diffRoleLeaders old new self ++
    diffSeen old new self ++ diffReachability old new

end ClusterEvents

/-! ## The snapshot of a gossip -/

structure CurrentClusterState where
  members : List Member
  unreachable : List Member
  seenBy : Finset UniqueAddress
  leader : Option UniqueAddress
  roleLeaders : FinMap String (Option UniqueAddress)
  memberTombstones : Finset UniqueAddress
  deriving DecidableEq

def CurrentClusterState.fromGossip (g : Gossip) (self : UniqueAddress) : CurrentClusterState where
  members := g.members
  unreachable := (g.reachability.negativeSubjects.filter (· ≠ self)).filterMap g.member
  seenBy := g.seen
  leader := LeaderSelection.forGossip g self
  roleLeaders := FinMap.tabulate (ClusterEvents.gossipRoles g) fun role =>
    some (LeaderSelection.forRole g self role)
  memberTombstones := g.tombstones.keys

end Kairo.Cluster
