import Kairo.Lib.Machine
import Kairo.Cluster.LocalChange

/-!
# A cluster of gossiping nodes

Membership actors that start from one common gossip, handle local commands and receive each other's
gossips.  A gossip that was sent once may be delivered at any later time, in any order, any number of
times and to any node.
-/

namespace Kairo.Cluster

open Kairo.Lib ClusterMembership List LeaderActions

/-- The common gossip, the nodes that start from it with their roles, and all addresses in use. -/
structure GossipCluster where
  base : Gossip
  nodes : List UniqueAddress
  roles : UniqueAddress → List String
  addresses : List UniqueAddress

structure GossipWorld where
  nodes : UniqueAddress → Option ClusterMembership
  sent : List (UniqueAddress × Gossip)

/-- The gossips a message carries, with their senders. -/
def ClusterMembershipMsg.carried : ClusterMembershipMsg → List (UniqueAddress × Gossip)
  | .welcome w => [(w.sender, w.gossip)]
  | .gossip e _ => [(e.sender, e.gossip)]
  | _ => []

def gossipsOf (effects : List MembershipEffect) : List Gossip :=
  effects.filterMap fun
    | .publish g => some g
    | .replyWelcome w => some w.gossip
    | .replyGossip e => some e.gossip
    | .gossipTick => none

namespace GossipCluster

variable (C : GossipCluster)

inductive Action
  | send (n : UniqueAddress)
  | receive (n : UniqueAddress) (msg : ClusterMembershipMsg)
  deriving DecidableEq

/-- Every node holds the common gossip. -/
def start : GossipWorld where
  nodes n := if n ∈ C.nodes then
    some { ClusterMembership.new n (C.roles n) with gossip := C.base, initialized := true } else none
  sent := []

def step (w : GossipWorld) : Action → Option GossipWorld
  | .send n => (w.nodes n).map fun m => { w with sent := w.sent ++ [(n, m.gossip)] }
  | .receive n msg =>
    if msg.carried ⊆ w.sent then
      (w.nodes n).map fun m =>
        let (m', effects) := m.receive msg
        { nodes := Function.update w.nodes n (some m')
          sent := w.sent ++ (gossipsOf effects).map (n, ·) }
    else none

def machine : Machine GossipWorld Action where
  init w := w = C.start
  step := step

/-! ## Conserving steps -/

/-- The joining node has an address in use and replaces no downed incarnation. -/
def ConservingJoin (m : ClusterMembership) (j : Join) : Prop :=
  j.node ∈ C.addresses ∧
    ∀ x ∈ m.gossip.members.find? (·.uniqueAddress.address = j.node.address),
      x.uniqueAddress ≠ j.node → x.status ≠ .down

/-- No member is lost while the node handles the message: no removal by the leader or by a join over
a downed incarnation, no merge that drops a member.  Nodes report their own observations about
members, and up numbers stay below the largest one. -/
def ConservingMsg (m : ClusterMembership) : ClusterMembershipMsg → Prop
  | .joinSelf => C.ConservingJoin m ⟨m.selfNode, m.roles⟩
  | .join j _ => C.ConservingJoin m j
  | .gossip e _ => e.gossip.version.compare m.gossip.version = .concurrent →
      e.gossip.MergeKeeps m.gossip
  | .markUnreachable observer subject | .markReachable observer subject =>
      observer = m.selfNode ∧ m.gossip.hasMember subject
  | .leaderActionsTick => LeaderActions.removedMembers m.gossip m.exitingConfirmed = [] ∧
      LeaderActions.nextUpNumber m.gossip + m.gossip.members.length < u64Max
  | _ => True

def Conserving (w : GossipWorld) : Action → Prop
  | .send _ => True
  | .receive n msg => ∀ m ∈ w.nodes n, C.ConservingMsg m msg

instance (m : ClusterMembership) (j : Join) : Decidable (C.ConservingJoin m j) :=
  inferInstanceAs (Decidable (_ ∧ _))

instance (m : ClusterMembership) (msg : ClusterMembershipMsg) : Decidable (C.ConservingMsg m msg) := by
  unfold ConservingMsg
  split <;> infer_instance

instance (w : GossipWorld) (a : Action) : Decidable (C.Conserving w a) := by
  unfold Conserving
  split <;> infer_instance

end GossipCluster

/-! ## What a message does to a node -/

open Gossip

/-- How the gossip of node `n` can change while it handles a message. -/
inductive Updates (U : List UniqueAddress) (n : UniqueAddress) (carried : List (UniqueAddress × Gossip))
    (g g' : Gossip) : Prop
  | keeps : Alike g g' → Updates U n carried g g'
  | changes (g₁ : Gossip) : Grown U n g g₁ → g' = (g₁.incrementVersion n).onlySeen n →
      Updates U n carried g g'
  | takes (p : UniqueAddress × Gossip) : p ∈ carried → (∀ k, g.version.get k ≤ p.2.version.get k) →
      Alike p.2 g' → Updates U n carried g g'
  | merges (p : UniqueAddress × Gossip) : p ∈ carried → p.2.MergeKeeps g → Alike (p.2.merge g) g' →
      Updates U n carried g g'

/-- What is known of a node after it has handled a message. -/
structure Handled (U : List UniqueAddress) (m : ClusterMembership) (msg : ClusterMembershipMsg)
    (out : ClusterMembership.Outcome) : Prop where
  selfNode : out.1.selfNode = m.selfNode
  initialized : out.1.initialized = m.initialized
  updates : Updates U m.selfNode msg.carried m.gossip out.1.gossip
  sent : ∀ g ∈ gossipsOf out.2, g = out.1.gossip

variable {U : List UniqueAddress} {m : ClusterMembership} {msg : ClusterMembershipMsg}

lemma Handled.unchanged {m' : ClusterMembership} {effects : List MembershipEffect}
    (hs : m'.selfNode = m.selfNode) (hi : m'.initialized = m.initialized)
    (hg : m'.gossip = m.gossip) (he : ∀ g ∈ gossipsOf effects, g = m.gossip) :
    Handled U m msg (m', effects) :=
  ⟨hs, hi, .keeps ⟨by rw [hg], by rw [hg], by rw [hg], by rw [hg]⟩, by rw [hg]; exact he⟩

lemma gossipsOf_install (m : ClusterMembership) (g : Gossip) :
    ∀ h ∈ gossipsOf (m.install g).2, h = g := by
  intro h hh
  unfold install at hh
  split_ifs at hh
  · simpa [gossipsOf] using hh
  · cases hh

lemma Handled.updated {g₁ : Gossip} (hg : Grown U m.selfNode m.gossip g₁)
    {more : List MembershipEffect}
    (hm : ∀ g ∈ gossipsOf more, g = (m.updateLatestGossip g₁).1.gossip) :
    Handled U m msg ((m.updateLatestGossip g₁).1, (m.updateLatestGossip g₁).2 ++ more) := by
  have hfst : (m.updateLatestGossip g₁).1 =
      { m with gossip := (g₁.incrementVersion m.selfNode).onlySeen m.selfNode } :=
    install_fst _ _
  refine ⟨by rw [hfst], by rw [hfst], .changes g₁ hg (by rw [hfst]), fun g hgm => ?_⟩
  rw [gossipsOf, filterMap_append, mem_append] at hgm
  rcases hgm with hgm | hgm
  · rw [gossipsOf_install _ _ g hgm, hfst]
  · exact hm g hgm

lemma Handled.stamped {g₁ : Gossip} (hg : Grown U m.selfNode m.gossip g₁) :
    Handled U m msg (m.updateLatestGossip g₁) := by
  have h : Handled U m msg ((m.updateLatestGossip g₁).1, (m.updateLatestGossip g₁).2 ++ []) :=
    .updated hg (by simp [gossipsOf])
  rwa [append_nil] at h

section Handlers

variable {C : GossipCluster} (hU : Set.InjOn UniqueAddress.orderingKey {x | x ∈ C.addresses})
  (hg : m.gossip.WellFormed C.addresses) (hn : m.selfNode ∈ m.gossip.addresses)

lemma gossipsOf_replyWelcome (m : ClusterMembership) (replyTo : Bool) :
    ∀ g ∈ gossipsOf (m.replyWelcome replyTo), g = m.gossip := by
  cases replyTo <;> simp [replyWelcome, gossipsOf]

include hg in
lemma downNode_handled (node : UniqueAddress) :
    Handled C.addresses m msg (m.downNode node) := by
  unfold downNode
  split_ifs
  · exact .stamped (.markDown hg node)
  · exact .unchanged rfl rfl rfl (by simp [gossipsOf])

include hU hg hn in
lemma joinNode_handled (hi : m.initialized = true) {j : Join} (replyTo : Bool)
    (hc : C.ConservingJoin m j) : Handled C.addresses m msg (m.joinNode j replyTo) := by
  unfold joinNode
  cases hx : m.gossip.members.find? (·.uniqueAddress.address = j.node.address) with
  | some x =>
    have hmem : x.uniqueAddress ∈ m.gossip.addresses :=
      mem_map_of_mem (mem_of_find?_eq_some hx)
    dsimp only
    split_ifs with he hd
    · exact .unchanged rfl rfl rfl (gossipsOf_replyWelcome m replyTo)
    · exact absurd hd (hc.2 x hx he)
    · -- the older incarnation is terminated and downed
      have hobs := Grown.observe hg hn hmem .terminated
      exact .stamped (hobs.trans (.markDown hobs.wellFormed _))
  | none =>
    have hnew : ∀ y ∈ m.gossip.addresses, y ≠ j.node := by
      rintro y hy rfl
      obtain ⟨x, hxm, hxj⟩ := mem_map.mp hy
      exact find?_eq_none.mp hx x hxm (by rw [← hxj]; simp)
    have hadd : Grown C.addresses m.selfNode m.gossip
        (m.gossip.addMember (Member.new j.node j.roles)) :=
      .addMember hU hg (fun h => hnew _ h rfl) hc.1 j.roles
    have hself : (m.gossip.addMember (Member.new j.node j.roles)).hasMember m.selfNode = true :=
      isSome_of_factOf_le (hadd.content.1 m.selfNode) (member_isSome_iff.mpr hn)
    dsimp only
    rw [if_pos hself]
    have hm : { m with initialized := true } = m := by rw [← hi]
    rw [hm]
    have hout : Handled C.addresses m msg
        (m.updateLatestGossip (m.gossip.addMember (Member.new j.node j.roles))) := .stamped hadd
    rw [if_neg]
    · exact .updated hadd (gossipsOf_replyWelcome _ replyTo)
    · rw [hout.selfNode]
      exact fun e => hnew _ hn e.symm

include hU hg in
lemma leaveAddress_handled (address : Address) :
    Handled C.addresses m msg (m.leaveAddress address) := by
  unfold leaveAddress
  cases hx : m.gossip.members.find? (·.uniqueAddress.address = address) with
  | none => exact .unchanged rfl rfl rfl (by simp [gossipsOf])
  | some x =>
    have hmem := mem_of_find?_eq_some hx
    dsimp only
    split_ifs with hs
    · refine .updated (.updateMembers hU hg fun c hc => ?_) (by simp [gossipsOf])
      obtain rfl := mem_singleton.mp hc
      refine ⟨⟨by simp, hg.aged x hmem⟩, fun y hy ha => ?_⟩
      obtain rfl : y = x := inj_on_of_nodup_map hg.sorted.nodup hy hmem ha
      refine factOf_le_of_priority ?_
      rw [Member.withStatus_status]
      rcases hs with hs | hs | hs <;> rw [hs] <;> decide
    · exact .unchanged rfl rfl rfl (by simp [gossipsOf])

include hg in
lemma applyDowningDecision_handled (d : DowningDecision) :
    Handled C.addresses m msg (m.applyDowningDecision d) := by
  obtain ⟨hgrown, hsame⟩ := @Grown.foldl_applyNode C.addresses m.selfNode
    (m.gossip, false) (DowningPlan.fromDecision d m.gossip m.selfNode).nodesToDown hg
  unfold applyDowningDecision DowningPlan.applyTo
  dsimp only
  split_ifs with hflag
  · exact .stamped hgrown
  · have hinstall : m.install m.gossip = (m, []) := if_neg (not_not.mpr rfl)
    rw [hsame (by simpa using hflag), hinstall]
    exact .unchanged rfl rfl rfl (by simp [gossipsOf])

include hU hg in
lemma runLeaderActions_handled
    (hr : removedMembers m.gossip m.exitingConfirmed = [])
    (hup : nextUpNumber m.gossip + m.gossip.members.length < u64Max) :
    Handled C.addresses m msg m.runLeaderActions := by
  unfold runLeaderActions onConvergence
  rw [hr]
  dsimp only
  split_ifs with hleader hblocked hidle
  · exact .unchanged rfl rfl rfl (by simp [gossipsOf])
  · exact .unchanged rfl rfl rfl (by simp [gossipsOf])
  · -- nothing to promote or advance
    have hc : changedMembers m.gossip = [] := isEmpty_iff.mp hidle.2
    refine .unchanged rfl rfl ?_ ?_ <;> simp [hc, LeaderActionOutcome.changed, gossipsOf]
  · have hc : (!(changedMembers m.gossip).isEmpty || !([] : List UniqueAddress).isEmpty)
        = true := by
      simpa using hidle
    refine ⟨rfl, rfl, .changes _ (.leaderChange hU hg hup) ?_, ?_⟩
    · simp only [LeaderActionOutcome.changed, hc, if_true, foldl_nil]
    · simp only [LeaderActionOutcome.changed, hc, if_true]
      simp [gossipsOf]

lemma receiveGossip_handled {e : GossipEnvelope} {replyTo : Bool}
    (hc : e.gossip.version.compare m.gossip.version = .concurrent → e.gossip.MergeKeeps m.gossip) :
    Handled C.addresses m (.gossip e replyTo) (m.receiveGossip e replyTo) := by
  have hup : Updates C.addresses m.selfNode (ClusterMembershipMsg.gossip e replyTo).carried m.gossip
      ((m.winningGossip e.gossip).1.markSeen m.selfNode) := by
    have hmem : (e.sender, e.gossip) ∈ (ClusterMembershipMsg.gossip e replyTo).carried :=
      mem_singleton_self _
    unfold winningGossip
    obtain ⟨hsame, -, hafter, -⟩ := VectorClock.compare_iff e.gossip.version m.gossip.version
    cases hcmp : e.gossip.version.compare m.gossip.version with
    | same => exact .takes _ hmem (fun k => (hsame.mp hcmp k).ge) ⟨rfl, rfl, rfl, rfl⟩
    | before => exact .keeps ⟨rfl, rfl, rfl, rfl⟩
    | after => exact .takes _ hmem (hafter.mp hcmp).1 ⟨rfl, rfl, rfl, rfl⟩
    | concurrent => exact .merges _ hmem (hc hcmp) ⟨rfl, rfl, rfl, rfl⟩
  unfold receiveGossip
  split_ifs with hacc
  · exact .unchanged rfl rfl rfl (by simp [gossipsOf])
  · have hfst := install_fst m ((m.winningGossip e.gossip).1.markSeen m.selfNode)
    have hsent := gossipsOf_install m ((m.winningGossip e.gossip).1.markSeen m.selfNode)
    dsimp only
    split_ifs
    · refine ⟨?_, ?_, ?_, fun g hg => ?_⟩ <;> dsimp only at * <;> rw [hfst]
      · exact hup
      · rw [gossipsOf, filterMap_append, mem_append] at hg
        rcases hg with hg | hg
        · exact hsent g hg
        · simpa [hfst] using hg
    · refine ⟨?_, ?_, ?_, fun g hg => ?_⟩ <;> dsimp only at * <;> rw [hfst]
      · exact hup
      · exact hsent g hg

include hU hg hn in
/-- **What every message does.** -/
theorem receive_handled (hi : m.initialized = true) (hc : C.ConservingMsg m msg) :
    Handled C.addresses m msg (m.receive msg) := by
  cases msg with
  | joinSelf => exact joinNode_handled hU hg hn hi false hc
  | join j replyTo => exact joinNode_handled hU hg hn hi replyTo hc
  | welcome w =>
    have h : m.welcomed w = (m, []) := if_pos (.inl hi)
    rw [receive, h]
    exact .unchanged rfl rfl rfl (by simp [gossipsOf])
  | gossip e replyTo => exact receiveGossip_handled hc
  | markUnreachable observer subject =>
    obtain ⟨rfl, hs⟩ := hc
    exact .stamped (.observe hg hn (member_isSome_iff.mp hs) .unreachable)
  | markReachable observer subject =>
    obtain ⟨rfl, hs⟩ := hc
    exact .stamped (.observe hg hn (member_isSome_iff.mp hs) .reachable)
  | leave address => exact leaveAddress_handled hU hg address
  | down node => exact downNode_handled hg node
  | downAddress address =>
    show Handled C.addresses m _ (m.downAddress address)
    unfold downAddress
    split
    · exact .unchanged rfl rfl rfl (by simp [gossipsOf])
    · exact downNode_handled hg _
  | exitingConfirmed node =>
    show Handled C.addresses m _ (m.confirmExiting node)
    unfold confirmExiting
    split_ifs <;> exact .unchanged rfl rfl rfl (by simp [gossipsOf])
  | applyDowningDecision d => exact applyDowningDecision_handled hg d
  | leaderActionsTick => exact runLeaderActions_handled hU hg hc.1 hc.2

end Handlers

end Kairo.Cluster
