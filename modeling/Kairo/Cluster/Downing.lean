import Kairo.Cluster.Gossip
import Mathlib.Data.List.Destutter

/-!
# Downing decisions and plans

The split-brain strategies: the abstract decision derived from a gossip (`SplitBrain.decision`), the
set of nodes a decision names (`DowningPlan.fromDecision`), the node-level plan of the resolver
(`SplitBrainResolverHook.plan`), and the change a plan makes to a gossip (`DowningPlan.applyTo`).

Node vectors are sorted and deduplicated in the source; what matters about them is which nodes they
hold, so each one gets a membership lemma.
-/

namespace Kairo.Cluster

open List

inductive DowningDecision
  | noAction | downReachable | downUnreachable | downAll
  | downIndirectlyConnected | reverseDownIndirectlyConnected | downSelfQuarantinedByRemote
  deriving DecidableEq, Repr

inductive SplitBrainStrategy
  | downAll
  | keepMajority (role : Option String)
  | keepOldest (role : Option String) (downIfAlone : Bool)
  deriving DecidableEq, Repr

/-! ## Candidate members -/

def MemberStatus.isDownable : MemberStatus → Bool
  | .down | .exiting | .removed => false
  | _ => true

/-- The member counts when a side of the partition is weighed. -/
def MemberStatus.isDecisive : MemberStatus → Bool
  | .joining | .weaklyUp | .down | .exiting | .removed => false
  | _ => true

def downableNodes (g : Gossip) : List UniqueAddress :=
  (g.members.filter (·.status.isDownable)).map (·.uniqueAddress)

def decisionMembers (g : Gossip) (role : Option String) : List Member :=
  sortMembers ((g.members.filter (·.status.isDecisive)).filter fun m => role.all m.hasRole)

/-! ## The side to keep -/

def majorityDecision (reachableSize unreachableSize : ℕ) (unreachable : Finset UniqueAddress)
    (lowest : Member) : DowningDecision :=
  if reachableSize = unreachableSize then
    if lowest.uniqueAddress ∈ unreachable then .downReachable else .downUnreachable
  else if unreachableSize < reachableSize then .downUnreachable
  else .downReachable

def keepMajorityDecision (g : Gossip) (role : Option String) : DowningDecision :=
  let members := decisionMembers g role
  let unreachable := g.reachability.allUnreachableOrTerminated
  let reachableSize := (members.filter (·.uniqueAddress ∉ unreachable)).length
  let unreachableSize := members.length - reachableSize
  match members.argmin (·.uniqueAddress.orderingKey) with
  | none => .downAll    -- no member qualifies
  | some lowest => majorityDecision reachableSize unreachableSize unreachable lowest

def oldestDecision (reachableCount unreachableCount : ℕ) (downIfAlone oldestIsReachable : Bool) :
    DowningDecision :=
  if oldestIsReachable then
    if downIfAlone ∧ reachableCount = 1 ∧ 2 ≤ unreachableCount then .downReachable
    else .downUnreachable
  else if downIfAlone ∧ unreachableCount = 1 ∧ 2 ≤ reachableCount then .downUnreachable
  else .downReachable

def keepOldestDecision (g : Gossip) (role : Option String) (downIfAlone : Bool) : DowningDecision :=
  let members := decisionMembers g role
  let unreachable := g.reachability.allUnreachableOrTerminated
  let reachableCount := (members.filter (·.uniqueAddress ∉ unreachable)).length
  let unreachableCount := members.length - reachableCount
  match members.argmin (·.ageKey) with
  | none => .downAll    -- no member qualifies
  | some oldest =>
    oldestDecision reachableCount unreachableCount downIfAlone
      (decide (oldest.uniqueAddress ∉ unreachable))

/-- The lease-majority test for being on the smaller side. -/
def isInMinority (g : Gossip) (role : Option String) : Bool :=
  let members := decisionMembers g role
  let unreachable := g.reachability.allUnreachableOrTerminated
  let unreachableSize := (members.filter (·.uniqueAddress ∈ unreachable)).length
  match members with
  | [] => false
  | first :: _ =>
    if unreachableSize * 2 = members.length then decide (first.uniqueAddress ∈ unreachable)
    else decide (members.length < unreachableSize * 2)

/-! ## Indirectly connected nodes -/

namespace SplitBrain

/-- Nodes that observe and are observed as unreachable. -/
def indirectlyConnectedFromObserverSubjectIntersection (g : Gossip) : Finset UniqueAddress :=
  g.reachability.allObservers ∩ g.reachability.allUnreachableOrTerminated

/-- Both ends of a negative record whose subject has seen the current gossip. -/
def indirectlyConnectedFromSeenCurrentGossip (g : Gossip) : Finset UniqueAddress :=
  ((g.reachability.records.filter fun r => r.isNegative ∧ r.subject ∈ g.seen).flatMap
    fun r => [r.observer, r.subject]).toFinset

def indirectlyConnectedNodes (g : Gossip) : Finset UniqueAddress :=
  indirectlyConnectedFromObserverSubjectIntersection g ∪ indirectlyConnectedFromSeenCurrentGossip g

def hasIndirectlyConnected (g : Gossip) : Bool := decide ((indirectlyConnectedNodes g).Nonempty)

def decisionWithoutIndirectCheck (g : Gossip) : SplitBrainStrategy → DowningDecision
  | .downAll => .downAll
  | .keepMajority role => keepMajorityDecision g role
  | .keepOldest role downIfAlone => keepOldestDecision g role downIfAlone

def decision (g : Gossip) : SplitBrainStrategy → DowningDecision
  | .downAll => .downAll
  | .keepMajority role =>
    if hasIndirectlyConnected g then .downIndirectlyConnected else keepMajorityDecision g role
  | .keepOldest role downIfAlone =>
    if hasIndirectlyConnected g then .downIndirectlyConnected
    else keepOldestDecision g role downIfAlone

def nodesToDownForDecision (d : DowningDecision) (g : Gossip) : List UniqueAddress :=
  let unreachable := g.reachability.allUnreachableOrTerminated
  match d with
  | .noAction => []
  | .downUnreachable => (downableNodes g).filter (· ∈ unreachable)
  | .downReachable => (downableNodes g).filter (· ∉ unreachable)
  | .downAll => downableNodes g
  | .downIndirectlyConnected => (downableNodes g).filter (· ∈ indirectlyConnectedNodes g)
  | .reverseDownIndirectlyConnected =>
    (downableNodes g).filter fun n => n ∈ indirectlyConnectedNodes g ∨ n ∉ unreachable
  | .downSelfQuarantinedByRemote => []

/-- The negative records between downable nodes that do not run inside one of the two groups of
indirectly connected nodes. -/
def filteredRecords (g : Gossip) : List ReachabilityRecord :=
  let crossed := indirectlyConnectedFromObserverSubjectIntersection g
  let seen := indirectlyConnectedFromSeenCurrentGossip g
  g.reachability.records.filter fun r =>
    r.observer ∈ downableNodes g ∧ r.subject ∈ downableNodes g ∧ r.isNegative ∧
      ¬(r.observer ∈ crossed ∧ r.subject ∈ crossed ∨ r.observer ∈ seen ∧ r.subject ∈ seen)

/-- The gossip whose reachability keeps only the filtered records. -/
def filteredGossip (g : Gossip) : Gossip :=
  g.withReachability
    ⟨filteredRecords g,
      Lib.FinMap.retain (fun o => decide (o ∈ downableNodes g)) g.reachability.versions⟩

def additionalNodesToDownWhenIndirectlyConnected (g : Gossip) (s : SplitBrainStrategy) :
    List UniqueAddress :=
  if g.reachability.allUnreachableOrTerminated ⊆ indirectlyConnectedNodes g then []
  else
    let d := decisionWithoutIndirectCheck (filteredGossip g) s
    if d = .downIndirectlyConnected then downableNodes g
    else nodesToDownForDecision d (filteredGossip g)

def indirectlyConnectedNodesToDown (g : Gossip) (s : SplitBrainStrategy) : List UniqueAddress :=
  (downableNodes g).filter fun n =>
    n ∈ indirectlyConnectedNodes g ∨ n ∈ additionalNodesToDownWhenIndirectlyConnected g s

end SplitBrain

/-! ## Plans -/

structure DowningPlan where
  decision : DowningDecision
  nodesToDown : List UniqueAddress
  downSelf : Bool
  deriving DecidableEq, Repr

/-- Sorts by address and drops adjacent repetitions. -/
def sortDedup (nodes : List UniqueAddress) : List UniqueAddress :=
  (nodes.insertionSort fun a b => a.orderingKey ≤ b.orderingKey).destutter (· ≠ ·)

namespace DowningPlan

def new (d : DowningDecision) (nodes : List UniqueAddress) (downSelf : Bool) : DowningPlan :=
  { decision := d, nodesToDown := sortDedup nodes, downSelf := downSelf }

def fromDecision (d : DowningDecision) (g : Gossip) (self : UniqueAddress) : DowningPlan :=
  let nodes := sortDedup <|
    match d with
    | .downSelfQuarantinedByRemote => if g.hasMember self then [self] else []
    | d => SplitBrain.nodesToDownForDecision d g
  new d nodes (decide (self ∈ nodes))

/-- Marks one planned node down, unless it is no member or down already, and notes the change. -/
def applyNode (acc : Gossip × Bool) (node : UniqueAddress) : Gossip × Bool :=
  if (acc.1.member node).any (·.status ≠ .down) then (acc.1.markDown node, true) else acc

/-- Applies the plan as one local causal update. -/
def applyTo (p : DowningPlan) (g : Gossip) (self : UniqueAddress) : Gossip :=
  let (changed, didChange) := p.nodesToDown.foldl applyNode (g, false)
  if didChange then (changed.incrementVersion self).onlySeen self else changed

end DowningPlan

structure SplitBrainResolverHook where
  strategy : SplitBrainStrategy
  deriving DecidableEq, Repr

namespace SplitBrainResolverHook

def decide (h : SplitBrainResolverHook) (g : Gossip) (_self : UniqueAddress) : DowningDecision :=
  SplitBrain.decision g h.strategy

def plan (h : SplitBrainResolverHook) (g : Gossip) (self : UniqueAddress) : DowningPlan :=
  let d := h.decide g self
  if d ≠ .downIndirectlyConnected then .fromDecision d g self
  else
    let nodes := SplitBrain.indirectlyConnectedNodesToDown g h.strategy
    .new d nodes (Decidable.decide (self ∈ nodes))

end SplitBrainResolverHook

/-! ## Which nodes a plan names -/

lemma mem_destutter_ne {α : Type*} [DecidableEq α] {a : α} {l : List α} :
    a ∈ l.destutter (· ≠ ·) ↔ a ∈ l := by
  have key : ∀ (l : List α) (b : α), a ∈ l.destutter' (· ≠ ·) b ↔ a ∈ b :: l := by
    intro l
    induction l with
    | nil => intro b; rfl
    | cons c l ih =>
      intro b
      by_cases hbc : b = c
      · subst hbc
        rw [destutter'_cons_neg (h := fun h => h rfl), ih]
        simp
      · rw [destutter'_cons_pos (h := hbc), mem_cons, ih]
        simp
  cases l with
  | nil => rfl
  | cons b l => exact key l b

variable {n : UniqueAddress}

@[simp] lemma mem_sortDedup {nodes : List UniqueAddress} : n ∈ sortDedup nodes ↔ n ∈ nodes := by
  rw [sortDedup, mem_destutter_ne, mem_insertionSort]

variable {g : Gossip} {d : DowningDecision}

lemma mem_downableNodes :
    n ∈ downableNodes g ↔ ∃ m ∈ g.members, m.status.isDownable ∧ m.uniqueAddress = n := by
  simp [downableNodes, and_assoc]

lemma mem_sortMembers {m : Member} {ms : List Member} : m ∈ sortMembers ms ↔ m ∈ ms :=
  mem_insertionSort _

lemma downable_of_mem_decisionMembers {role : Option String} {m : Member}
    (h : m ∈ decisionMembers g role) : m.uniqueAddress ∈ downableNodes g := by
  rw [decisionMembers, mem_sortMembers, mem_filter, mem_filter] at h
  obtain ⟨⟨hm, hs⟩, -⟩ := h
  refine mem_downableNodes.mpr ⟨m, hm, ?_, rfl⟩
  revert hs
  cases m.status <;> simp [MemberStatus.isDecisive, MemberStatus.isDownable]

lemma nodesToDownForDecision_subset (h : n ∈ SplitBrain.nodesToDownForDecision d g) :
    n ∈ downableNodes g := by
  cases d <;> simp only [SplitBrain.nodesToDownForDecision, mem_filter, not_mem_nil] at h
  all_goals first | exact h.1 | exact h

/-- The nodes named by a decision other than the self-quarantine one. -/
lemma mem_fromDecision {self n : UniqueAddress} (hd : d ≠ .downSelfQuarantinedByRemote) :
    n ∈ (DowningPlan.fromDecision d g self).nodesToDown ↔
      n ∈ SplitBrain.nodesToDownForDecision d g := by
  cases d <;> simp [DowningPlan.fromDecision, DowningPlan.new] at hd ⊢

/-! ## What applying a plan changes -/

namespace DowningPlan

lemma member_applyNode (acc : Gossip × Bool) (node n : UniqueAddress) :
    (applyNode acc node).1.member n =
      (acc.1.member n).map fun m => if n = node then m.withStatus .down else m := by
  by_cases h : (acc.1.member node).any (·.status ≠ .down)
  · rw [applyNode, if_pos h]
    exact Gossip.member_markDown _ _ _
  · rw [applyNode, if_neg h]
    cases hn : acc.1.member n with
    | none => rfl
    | some m =>
      by_cases he : n = node
      · -- the node is down already, so marking it would change nothing
        subst he
        have hd : m.status = .down := by simpa [hn] using h
        simp [Member.withStatus, ← hd]
      · simp [he]

lemma member_foldl_applyNode (nodes : List UniqueAddress) (acc : Gossip × Bool)
    (n : UniqueAddress) :
    (nodes.foldl applyNode acc).1.member n =
      (acc.1.member n).map fun m => if n ∈ nodes then m.withStatus .down else m := by
  induction nodes generalizing acc with
  | nil => simp
  | cons node nodes ih =>
    rw [foldl_cons, ih, member_applyNode, Option.map_map]
    congr 1
    funext m
    by_cases h1 : n = node <;> by_cases h2 : n ∈ nodes <;> simp [h1, h2, Member.withStatus]

lemma member_applyTo (p : DowningPlan) (g : Gossip) (self n : UniqueAddress) :
    (p.applyTo g self).member n =
      (g.member n).map fun m => if n ∈ p.nodesToDown then m.withStatus .down else m := by
  rw [← member_foldl_applyNode p.nodesToDown (g, false) n]
  unfold applyTo
  dsimp only
  split <;> rfl

end DowningPlan

/-- The members that were not down before and are down after. -/
def markedDown (before after : Gossip) : Finset UniqueAddress :=
  before.addresses.toFinset.filter fun n =>
    (before.member n).any (·.status ≠ .down) ∧ (after.member n).any (·.status = .down)

/-- A plan over downable members marks all of its nodes. -/
lemma markedDown_applyTo (hg : g.Normalized) (p : DowningPlan) (self : UniqueAddress)
    (hp : ∀ n ∈ p.nodesToDown, n ∈ downableNodes g) :
    markedDown g (p.applyTo g self) = p.nodesToDown.toFinset := by
  ext n
  rw [markedDown, Finset.mem_filter, mem_toFinset, mem_toFinset, p.member_applyTo]
  constructor
  · rintro ⟨-, hb, ha⟩
    by_contra hn
    cases hm : g.member n with
    | none => simp [hm] at hb
    | some m => simp [hm, hn] at hb ha; exact hb ha
  · intro hn
    obtain ⟨m, hm, hdown, rfl⟩ := mem_downableNodes.mp (hp n hn)
    have hne : m.status ≠ .down := by
      intro h
      rw [h] at hdown
      cases hdown
    rw [Gossip.member_of_mem hg hm]
    exact ⟨mem_map_of_mem hm, by simp [hne], by simp [hn]⟩

end Kairo.Cluster
