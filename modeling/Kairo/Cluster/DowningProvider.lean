import Kairo.Cluster.Membership

/-!
# The downing provider

The actor that waits until the unreachable set has been stable and then, if its node leads, sends the
hook's decision to the membership actor.  Only the abstract decision travels: the membership actor
resolves it again against its own gossip.  `applied_eq_plan_iff` says when that resolution names the
nodes of the resolver's own plan.
-/

namespace Kairo.Cluster

open SplitBrain

/-- A downing policy.  The plan of a hook that chooses no nodes of its own is read off its decision. -/
class DowningHook (H : Type) where
  decide : H → Gossip → UniqueAddress → DowningDecision
  decisionDelay : H → Gossip → UniqueAddress → ℕ := fun _ _ _ => 0
  plan : H → Gossip → UniqueAddress → DowningPlan :=
    fun h g self => .fromDecision (decide h g self) g self

instance : DowningHook SplitBrainResolverHook where
  decide := SplitBrainResolverHook.decide
  plan := SplitBrainResolverHook.plan

inductive DowningProviderMsg
  | observeGossip (gossip : Gossip)
  | stableAfterElapsed
  | decisionDelayElapsed
  deriving DecidableEq

structure DowningProvider (H : Type) where
  selfNode : UniqueAddress
  hook : H
  latestGossip : Gossip
  relevantUnreachable : Finset UniqueAddress
  stableTimerActive : Bool
  decisionDelayActive : Bool

/-- The unreachable nodes a decision would be about. -/
def Gossip.relevantUnreachable (g : Gossip) (self : UniqueAddress) : Finset UniqueAddress :=
  (g.reachability.allUnreachableOrTerminated.filter (· ≠ self)).filter fun n =>
    (g.member n).any (·.status.isDownable)

namespace DowningProvider

variable {H : Type} [DowningHook H]

def new (self : UniqueAddress) (hook : H) : DowningProvider H :=
  { selfNode := self, hook, latestGossip := .new, relevantUnreachable := ∅,
    stableTimerActive := false, decisionDelayActive := false }

variable (p : DowningProvider H)

def isResponsible : Bool :=
  LeaderSelection.forGossip p.latestGossip p.selfNode = some p.selfNode

def observeGossip (g : Gossip) : DowningProvider H :=
  let next := g.relevantUnreachable p.selfNode
  let p' := { p with latestGossip := g, relevantUnreachable := next }
  if next = ∅ then { p' with stableTimerActive := false, decisionDelayActive := false }
  else if next ≠ p.relevantUnreachable ∨ (!p.isResponsible ∧ p'.isResponsible) ∨
      (!p.stableTimerActive ∧ !p.decisionDelayActive) then
    { p' with stableTimerActive := true, decisionDelayActive := false }
  else p'

/-- The message to the membership actor, if the hook decides to act. -/
def applyDecision : List ClusterMembershipMsg :=
  let d := DowningHook.decide p.hook p.latestGossip p.selfNode
  if d ≠ .noAction then [.applyDowningDecision d] else []

def stableAfterElapsed : DowningProvider H × List ClusterMembershipMsg :=
  let p := { p with stableTimerActive := false }
  if !p.isResponsible ∨ p.relevantUnreachable = ∅ then (p, [])
  else if DowningHook.decisionDelay p.hook p.latestGossip p.selfNode ≠ 0 then
    ({ p with decisionDelayActive := true }, [])
  else (p, p.applyDecision)

def decisionDelayElapsed : DowningProvider H × List ClusterMembershipMsg :=
  let p := { p with decisionDelayActive := false }
  if !p.isResponsible ∨ p.relevantUnreachable = ∅ then (p, [])
  else (p, p.applyDecision)

def receive :
    DowningProviderMsg → DowningProvider H × List ClusterMembershipMsg
  | .observeGossip g => (p.observeGossip g, [])
  | .stableAfterElapsed => p.stableAfterElapsed
  | .decisionDelayElapsed => p.decisionDelayElapsed

/-- The provider sends nothing but its hook's decision on the latest gossip. -/
lemma sent_eq_applyDecision {p : DowningProvider H} {msg : DowningProviderMsg}
    (h : (p.receive msg).2 ≠ []) : (p.receive msg).2 = p.applyDecision := by
  cases msg with
  | observeGossip g => exact absurd rfl h
  | stableAfterElapsed =>
    simp only [receive, stableAfterElapsed] at h ⊢
    split_ifs at h ⊢ <;> first | rfl | exact absurd rfl h
  | decisionDelayElapsed =>
    simp only [receive, decisionDelayElapsed] at h ⊢
    split_ifs at h ⊢ <;> first | rfl | exact absurd rfl h

end DowningProvider

/-! ## Plan and applied decision -/

/-- `n` is not indirectly connected, but the strategy gives it up once the observations among the
indirectly connected nodes are left out, and those observations do not explain every unreachable
node. -/
def GivenUpBesides (g : Gossip) (s : SplitBrainStrategy) (n : UniqueAddress) : Prop :=
  SplitBrain.decision g s = .downIndirectlyConnected ∧
  ¬ g.reachability.allUnreachableOrTerminated ⊆ SplitBrain.indirectlyConnectedNodes g ∧
  n ∉ SplitBrain.indirectlyConnectedNodes g ∧
  n ∈ SplitBrain.nodesToDownForDecision
    (SplitBrain.decisionWithoutIndirectCheck (SplitBrain.filteredGossip g) s)
    (SplitBrain.filteredGossip g)

lemma decisionWithoutIndirectCheck_ne (g : Gossip) (s : SplitBrainStrategy) :
    decisionWithoutIndirectCheck g s ≠ .downIndirectlyConnected ∧
      decisionWithoutIndirectCheck g s ≠ .downSelfQuarantinedByRemote ∧
      decisionWithoutIndirectCheck g s ≠ .noAction := by
  cases s with
  | downAll => simp [decisionWithoutIndirectCheck]
  | keepMajority role =>
    simp only [decisionWithoutIndirectCheck, keepMajorityDecision]
    split
    · simp
    · simp only [majorityDecision]; split_ifs <;> simp
  | keepOldest role downIfAlone =>
    simp only [decisionWithoutIndirectCheck, keepOldestDecision]
    split
    · simp
    · simp only [oldestDecision]; split_ifs <;> simp

lemma decision_ne (g : Gossip) (s : SplitBrainStrategy) :
    decision g s ≠ .downSelfQuarantinedByRemote ∧ decision g s ≠ .noAction := by
  have h := (decisionWithoutIndirectCheck_ne g s).2
  cases s <;> simp only [decision, decisionWithoutIndirectCheck] at h ⊢
  · simp
  all_goals
    split_ifs
    · simp
    · exact h

/-- The resolver plans what its decision names, and besides it the nodes given up. -/
lemma mem_plan_iff (s : SplitBrainStrategy) (g : Gossip) (self n : UniqueAddress) :
    n ∈ ((SplitBrainResolverHook.mk s).plan g self).nodesToDown ↔
      n ∈ (DowningPlan.fromDecision (decision g s) g self).nodesToDown ∨
        GivenUpBesides g s n := by
  rw [mem_fromDecision (decision_ne g s).1]
  by_cases hd : decision g s = .downIndirectlyConnected
  · simp only [SplitBrainResolverHook.plan, SplitBrainResolverHook.decide, hd, ne_eq,
      not_true_eq_false, if_false, DowningPlan.new, mem_sortDedup,
      indirectlyConnectedNodesToDown, nodesToDownForDecision, List.mem_filter,
      decide_eq_true_eq, additionalNodesToDownWhenIndirectlyConnected,
      (decisionWithoutIndirectCheck_ne (filteredGossip g) s).1, GivenUpBesides, true_and]
    constructor
    · rintro ⟨hdown, hic | hadd⟩
      · exact .inl ⟨hdown, hic⟩
      · by_cases hic : n ∈ indirectlyConnectedNodes g
        · exact .inl ⟨hdown, hic⟩
        · split_ifs at hadd with hsub
          · cases hadd
          · exact .inr ⟨hsub, hic, hadd⟩
    · rintro (⟨hdown, hic⟩ | ⟨hsub, hic, hadd⟩)
      · exact ⟨hdown, .inl hic⟩
      · have hdown := nodesToDownForDecision_subset hadd
        exact ⟨hdown, .inr (by rw [if_neg hsub]; exact hadd)⟩
  · simp only [SplitBrainResolverHook.plan, SplitBrainResolverHook.decide, hd, ne_eq,
      not_false_eq_true, if_true, GivenUpBesides, false_and, or_false]
    exact mem_fromDecision (decision_ne g s).1

lemma not_mem_fromDecision_of_givenUpBesides {g : Gossip} {s : SplitBrainStrategy}
    {self n : UniqueAddress} (h : GivenUpBesides g s n) :
    n ∉ (DowningPlan.fromDecision (decision g s) g self).nodesToDown := by
  rw [mem_fromDecision (decision_ne g s).1, h.1]
  simp [nodesToDownForDecision, h.2.2.1]

/-- **What the membership actor downs is the plan, unless a node is given up besides the indirectly
connected ones.**  Whenever the provider acts, and the membership actor holds the same gossip, the
members it marks down are those of the resolver's plan exactly when no node is given up besides. -/
theorem applied_eq_plan_iff (p : DowningProvider SplitBrainResolverHook) (m : ClusterMembership)
    (hgossip : m.gossip = p.latestGossip) (hself : m.selfNode = p.selfNode)
    (hnorm : m.gossip.Normalized) (msg : DowningProviderMsg) (hact : (p.receive msg).2 ≠ []) :
    markedDown m.gossip (m.receiveAll (p.receive msg).2).gossip =
        (p.hook.plan p.latestGossip p.selfNode).nodesToDown.toFinset ↔
      ∀ n, ¬ GivenUpBesides p.latestGossip p.hook.strategy n := by
  obtain ⟨s, hook⟩ : ∃ s, p.hook = ⟨s⟩ := ⟨p.hook.strategy, rfl⟩
  have hsent : (p.receive msg).2 = [.applyDowningDecision (decision p.latestGossip s)] := by
    rw [DowningProvider.sent_eq_applyDecision hact]
    simp only [DowningProvider.applyDecision, DowningHook.decide, SplitBrainResolverHook.decide, hook,
      ne_eq, (decision_ne p.latestGossip s).2, not_false_eq_true, if_true]
  have happly : (m.receiveAll (p.receive msg).2).gossip =
      (DowningPlan.fromDecision (decision p.latestGossip s) p.latestGossip
        p.selfNode).applyTo m.gossip p.selfNode := by
    rw [hsent, ← hgossip, ← hself]
    exact congrArg ClusterMembership.gossip (ClusterMembership.install_fst _ _)
  rw [happly, markedDown_applyTo hnorm]
  · simp only [hook, Finset.ext_iff, List.mem_toFinset, mem_plan_iff]
    refine ⟨fun h n hn => ?_, fun h n => by simp [h n]⟩
    exact not_mem_fromDecision_of_givenUpBesides hn ((h n).mpr (.inr hn))
  · intro n hn
    rw [mem_fromDecision (decision_ne _ s).1] at hn
    rw [hgossip]
    exact nodesToDownForDecision_subset hn

def observingProvider (self : UniqueAddress) (g : Gossip) : DowningProvider SplitBrainResolverHook :=
  (DowningProvider.new self ⟨.keepMajority none⟩).observeGossip g

def membershipHolding (self : UniqueAddress) (g : Gossip) : ClusterMembership :=
  { ClusterMembership.new self [] with gossip := g, initialized := true }

/-- `a` and `b` observe each other as unreachable, nobody else is affected. -/
def crossedPair : Gossip :=
  (Gossip.allUp ["a", "b", "c", "d", "e"]).withReachability
    ((Reachability.new.unreachable (.localTo "a" 1) (.localTo "b" 2)).unreachable
      (.localTo "b" 2) (.localTo "a" 1))

/-- Besides the crossed pair, `d` cannot reach `c`. -/
def crossedPairAndLost : Gossip :=
  crossedPair.withReachability
    (crossedPair.reachability.unreachable (.localTo "d" 4) (.localTo "c" 3))

theorem applied_eq_plan_crossedPair :
    markedDown crossedPair
        ((membershipHolding (.localTo "c" 3) crossedPair).receiveAll
          ((observingProvider (.localTo "c" 3) crossedPair).receive .stableAfterElapsed).2).gossip =
      ((SplitBrainResolverHook.mk (.keepMajority none)).plan crossedPair
        (.localTo "c" 3)).nodesToDown.toFinset :=
  (applied_eq_plan_iff (observingProvider (.localTo "c" 3) crossedPair)
    (membershipHolding (.localTo "c" 3) crossedPair) (by decide +kernel) (by decide +kernel)
    (by decide +kernel) .stableAfterElapsed (by decide +kernel)).mpr
    fun _ h => h.2.1 (by decide +kernel)

/-- The plan downs `a`, `b` and `c`; the membership actor downs `a` and `b` only. -/
theorem applied_ne_plan_crossedPairAndLost :
    ((observingProvider (.localTo "d" 4) crossedPairAndLost).receive .stableAfterElapsed).2 ≠ [] ∧
      crossedPairAndLost.Normalized ∧
      markedDown crossedPairAndLost
          ((membershipHolding (.localTo "d" 4) crossedPairAndLost).receiveAll
            ((observingProvider (.localTo "d" 4) crossedPairAndLost).receive
              .stableAfterElapsed).2).gossip ≠
        ((SplitBrainResolverHook.mk (.keepMajority none)).plan crossedPairAndLost
          (.localTo "d" 4)).nodesToDown.toFinset := by
  decide +kernel

end Kairo.Cluster
