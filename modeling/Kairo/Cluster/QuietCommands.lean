import Kairo.Cluster.GossipAssoc
import Kairo.Cluster.LeaderSafety
import Kairo.Cluster.Membership

/-!
# Commands without effect

A command that changes neither members nor reachability should leave the version and the seen table
alone.  The guards of the actor see to that for every command but the two reachability marks.
-/

namespace Kairo.Cluster

open LeaderActions Gossip List DowningPlan

/-- The messages that ask for a change, as opposed to the gossip of other nodes. -/
def ClusterMembershipMsg.IsCommand : ClusterMembershipMsg → Prop
  | .welcome _ | .gossip _ _ => False
  | _ => True

/-- The commands that record an observation. -/
def ClusterMembershipMsg.Marks : ClusterMembershipMsg → Prop
  | .markUnreachable _ _ | .markReachable _ _ => True
  | _ => False

namespace ClusterMembership

variable {m : ClusterMembership} {g : Gossip} {n x : UniqueAddress} {c : Member} {out : Outcome}

/-- The gossip did not move, and nothing was published. -/
structure Quiet (m : ClusterMembership) (out : Outcome) : Prop where
  version : out.1.gossip.version = m.gossip.version
  seen : out.1.gossip.seen = m.gossip.seen
  published : ∀ g, .publish g ∉ out.2

lemma Quiet.of_gossip (h : out.1.gossip = m.gossip) (hp : ∀ g, .publish g ∉ out.2) : Quiet m out :=
  ⟨by rw [h], by rw [h], hp⟩

lemma not_quiet_updateLatestGossip (hv : g.version = m.gossip.version) :
    ¬ Quiet m (m.updateLatestGossip g) := by
  intro h
  have hv' := congrArg (·.get (vclockNode m.selfNode)) h.version
  rw [updateLatestGossip, install_fst] at hv'
  change (g.version.increment _).get _ = _ at hv'
  rw [VectorClock.get_increment, if_pos rfl, hv] at hv'
  exact absurd hv' (Nat.succ_ne_self _)

/-! ## Commands that change a member -/

/-- The command is quiet or changes the member list. -/
def Guarded (m : ClusterMembership) (out : Outcome) : Prop :=
  Quiet m out ∨ out.1.gossip.members ≠ m.gossip.members

lemma Guarded.of_member (h : out.1.gossip.member n ≠ m.gossip.member n) : Guarded m out :=
  .inr fun e => h (by rw [member, member, e])

lemma members_updateLatestGossip : (m.updateLatestGossip g).1.gossip.members = g.members := by
  rw [updateLatestGossip, install_fst]
  rfl

lemma member_updateLatestGossip : (m.updateLatestGossip g).1.gossip.member n = g.member n := by
  rw [member, member, members_updateLatestGossip]

lemma member_markDown_ne (h : (g.member n).any (·.status ≠ .down)) :
    (g.markDown n).member n ≠ g.member n := by
  obtain ⟨c, hc, hs⟩ : ∃ c, g.member n = some c ∧ c.status ≠ .down := by
    simpa [Option.any_eq_true] using h
  rw [member_markDown, hc, Option.map_some, if_pos rfl]
  intro e
  injection e with e
  exact hs (by rw [← e]; rfl)

lemma guarded_downNode : Guarded m (m.downNode n) := by
  unfold downNode
  split_ifs with h
  · exact .of_member (member_updateLatestGossip.trans_ne (member_markDown_ne h))
  · exact .inl (.of_gossip rfl (by simp))

lemma guarded_leaveAddress (hn : m.gossip.Normalized) (address : Address) :
    Guarded m (m.leaveAddress address) := by
  unfold leaveAddress
  split
  · exact .inl (.of_gossip rfl (by simp))
  · next x hx =>
    split_ifs with hs
    · have hm := member_of_mem hn (mem_of_find?_eq_some hx)
      refine .of_member (n := x.uniqueAddress) (member_updateLatestGossip.trans_ne ?_)
      rw [member_updateMembers hn, hm]
      intro e
      have hst : x.status = .leaving := by
        have he : x.withStatus .leaving = x := by simpa [replaced] using e
        rw [← he]
        rfl
      simp [hst] at hs
    · exact .inl (.of_gossip rfl (by simp))

lemma guarded_downAddress (address : Address) : Guarded m (m.downAddress address) := by
  unfold downAddress
  split
  · exact .inl (.of_gossip rfl (by simp))
  · exact guarded_downNode

lemma guarded_confirmExiting : Guarded m (m.confirmExiting n) := by
  refine .inl (.of_gossip ?_ (by simp [confirmExiting]))
  unfold confirmExiting
  split_ifs <;> rfl

lemma foldl_applyNode_of_down {nodes : List UniqueAddress}
    (h : ∀ n ∈ nodes, (g.member n).any (·.status ≠ .down) = false) :
    nodes.foldl applyNode (g, false) = (g, false) := by
  induction nodes with
  | nil => rfl
  | cons n nodes ih =>
    rw [foldl_cons, applyNode, h n (by simp)]
    exact ih fun n' hn' => h n' (mem_cons_of_mem _ hn')

lemma guarded_applyDowningDecision (d : DowningDecision) :
    Guarded m (m.applyDowningDecision d) := by
  unfold applyDowningDecision
  generalize fromDecision d m.gossip m.selfNode = p
  by_cases h : ∀ n ∈ p.nodesToDown, (m.gossip.member n).any (·.status ≠ .down) = false
  · have hp : p.applyTo m.gossip m.selfNode = m.gossip := by
      rw [applyTo, foldl_applyNode_of_down h]
      rfl
    rw [hp]
    exact .inl (.of_gossip (by rw [install_fst]) (by simp [install]))
  · push Not at h
    obtain ⟨n, hn, hs⟩ := h
    refine .of_member (n := n) ?_
    rw [install_fst, member_applyTo]
    have hne := member_markDown_ne (Bool.of_not_eq_false hs)
    rw [member_markDown] at hne
    simpa [hn] using hne

/-- The leader either keeps the gossip and is silent or installs what its pass made of it. -/
lemma runLeaderActions_cases (m : ClusterMembership) :
    m.runLeaderActions.1.gossip = m.gossip ∧ m.runLeaderActions.2 = [] ∨
      ¬ ((removedMembers m.gossip m.exitingConfirmed).isEmpty ∧ (changedMembers m.gossip).isEmpty) ∧
        m.runLeaderActions.1.gossip =
          passed m.gossip m.selfNode (m.timestamp + 1) m.exitingConfirmed := by
  unfold runLeaderActions onConvergence
  dsimp only
  split_ifs with hl hb he
  · exact .inl ⟨rfl, rfl⟩
  · exact .inl ⟨rfl, rfl⟩
  · refine .inl ?_
    obtain ⟨h1, h2⟩ := he
    simp [LeaderActionOutcome.changed, h1, h2]
  · have hch : (!(changedMembers m.gossip).isEmpty ||
        !(removedMembers m.gossip m.exitingConfirmed).isEmpty) = true := by
      grind
    refine .inr ⟨he, ?_⟩
    simp only [LeaderActionOutcome.changed, hch, if_true]
    rfl

lemma guarded_runLeaderActions (hn : m.gossip.Normalized) : Guarded m m.runLeaderActions := by
  rcases runLeaderActions_cases m with ⟨hg, he⟩ | ⟨hch, hg⟩
  · exact .inl (.of_gossip hg (by simp [he]))
  · by_cases hr : removedMembers m.gossip m.exitingConfirmed = []
    · obtain ⟨c, hc⟩ := exists_mem_of_ne_nil (changedMembers m.gossip) fun e => hch
        (by simp [hr, e])
      obtain ⟨x, hx, k, -, ha, -⟩ := exists_advanced hc
      have hm := member_of_mem hn hx
      refine .of_member (n := x.uniqueAddress) fun e => ?_
      rw [hg, hm] at e
      rcases member_of_passed hn hm e with ⟨-, h1, h2, h3⟩ | ⟨-, k', -, ha'⟩
      · cases ha <;> simp_all
      · exact ha'.status_ne rfl
    · obtain ⟨n, hr⟩ := exists_mem_of_ne_nil _ hr
      obtain ⟨c, hc, -⟩ := (mem_removedMembers hn).mp hr
      refine .of_member (n := n) ?_
      rw [hg, member_passed, if_pos hr, hc]
      simp

lemma members_addMember (hn : g.Normalized) (hc : c.uniqueAddress ∉ g.addresses) :
    (g.addMember c).members.Perm (g.members ++ [c]) := by
  refine normalizeMembers_perm ?_
  rw [map_append, nodup_append]
  refine ⟨hn, by simp, ?_⟩
  rintro a ha b hb rfl
  obtain rfl : a = c.uniqueAddress := by simpa using hb
  exact hc ha

lemma normalized_addMember : (g.addMember c).Normalized := nodup_normalizeMembers _

lemma mem_addMember (hn : g.Normalized) (hc : c.uniqueAddress ∉ g.addresses) {y : Member} :
    y ∈ (g.addMember c).members ↔ y ∈ g.members ∨ y = c := by
  rw [(members_addMember hn hc).mem_iff, mem_append, mem_singleton]

/-- A member that is not terminal outlives a pass of the leader. -/
lemma member_runLeaderActions (hn : m.gossip.Normalized) (hm : m.gossip.member x = some c)
    (hs : c.status = .joining) : m.runLeaderActions.1.gossip.member x ≠ none := by
  rcases runLeaderActions_cases m with ⟨hg, -⟩ | ⟨-, hg⟩
  · rw [hg, hm]
    simp
  · obtain ⟨c', hc', -⟩ := member_changed hn hm
    rw [hg, member_passed, hc', if_neg]
    · simp
    · rw [mem_removedMembers hn]
      rintro ⟨y, hy, hrem, -⟩
      cases hm.symm.trans hy
      simp [hs] at hrem

lemma member_joined (hn : g.Normalized) (hx : c.uniqueAddress ∉ g.addresses)
    (self : UniqueAddress) (roles : List String) :
    let g' := if (g.addMember c).hasMember self then g.addMember c
      else (g.addMember c).addMember (Member.new self roles)
    g'.Normalized ∧ g'.member c.uniqueAddress = some c := by
  have hc : c ∈ (g.addMember c).members := (mem_addMember hn hx).mpr (.inr rfl)
  split_ifs with hself
  · exact ⟨normalized_addMember, member_of_mem normalized_addMember hc⟩
  · have hown : self ∉ (g.addMember c).addresses := by
      rw [← member_isSome_iff]
      exact hself
    exact ⟨normalized_addMember, member_of_mem normalized_addMember
      ((mem_addMember normalized_addMember hown).mpr (.inl hc))⟩

lemma guarded_joinNode (hn : m.gossip.Normalized) (j : Join) (replyTo : Bool) :
    Guarded m (m.joinNode j replyTo) := by
  unfold joinNode
  split
  · next x hx =>
    have hmem := mem_of_find?_eq_some hx
    have hm := member_of_mem hn hmem
    split_ifs with he hd
    · refine .inl (.of_gossip rfl ?_)
      unfold replyWelcome
      split_ifs <;> simp
    · -- the old incarnation is gone
      refine .inr fun e => ?_
      rw [members_updateLatestGossip] at e
      rcases mem_append.mp (mem_of_mem_normalizeMembers (e.symm ▸ hmem)) with h | h
      · simp [remove] at h
      · rw [mem_singleton.mp h] at he
        exact he rfl
    · refine .of_member (member_updateLatestGossip.trans_ne (member_markDown_ne ?_))
      change (m.gossip.member x.uniqueAddress).any _ = true
      rw [hm]
      simpa using hd
  · next hx =>
    have hnew : j.node ∉ m.gossip.addresses := by
      intro h
      obtain ⟨y, hy, he⟩ := mem_map.mp h
      exact absurd (find?_eq_none.mp hx y hy) (by simp [he])
    have hnone : m.gossip.member j.node = none := by
      rwa [← Option.not_isSome_iff_eq_none, member_isSome_iff]
    obtain ⟨hn', hm'⟩ := member_joined (c := Member.new j.node j.roles) hn hnew m.selfNode m.roles
    refine .of_member (n := j.node) ?_
    rw [hnone]
    dsimp only at hn' hm' ⊢
    generalize (if (m.gossip.addMember (Member.new j.node j.roles)).hasMember m.selfNode = true then
        m.gossip.addMember (Member.new j.node j.roles)
      else (m.gossip.addMember (Member.new j.node j.roles)).addMember
        (Member.new m.selfNode m.roles)) = g at hn' hm' ⊢
    split_ifs
    · refine member_runLeaderActions ?_ (member_updateLatestGossip.trans hm') rfl
      rw [Gossip.Normalized, addresses, members_updateLatestGossip]
      exact hn'
    · refine ne_of_eq_of_ne (member_updateLatestGossip.trans hm') (by simp)

/-- A command without effect on members and reachability leaves the gossip alone exactly when it is
no reachability mark. -/
theorem receive_quiet_iff (m : ClusterMembership) (hn : m.gossip.Normalized)
    (msg : ClusterMembershipMsg) (hc : msg.IsCommand)
    (h : (m.receive msg).1.gossip.members = m.gossip.members ∧
      (m.receive msg).1.gossip.reachability = m.gossip.reachability) :
    Quiet m (m.receive msg) ↔ ¬ msg.Marks := by
  have guarded (hg : Guarded m (m.receive msg)) : Quiet m (m.receive msg) :=
    hg.resolve_right (not_not.mpr h.1)
  cases msg with
  | markUnreachable o s | markReachable o s =>
    exact iff_of_false (not_quiet_updateLatestGossip rfl) (not_not.mpr trivial)
  | welcome w | gossip e r => cases hc
  | joinSelf | join j r => exact iff_of_true (guarded (guarded_joinNode hn _ _)) not_false
  | leave a => exact iff_of_true (guarded (guarded_leaveAddress hn a)) not_false
  | down n => exact iff_of_true (guarded guarded_downNode) not_false
  | downAddress a => exact iff_of_true (guarded (guarded_downAddress a)) not_false
  | exitingConfirmed n => exact iff_of_true (guarded guarded_confirmExiting) not_false
  | applyDowningDecision d => exact iff_of_true (guarded (guarded_applyDowningDecision d)) not_false
  | leaderActionsTick => exact iff_of_true (guarded (guarded_runLeaderActions hn)) not_false

/-- A member leaves for the second time. -/
theorem receive_quiet_leaving :
    Quiet { new (.localTo "a" 1) [] with
        gossip := .fromMembers [(Member.new (.localTo "b" 2) []).withStatus .leaving] }
      (receive { new (.localTo "a" 1) [] with
          gossip := .fromMembers [(Member.new (.localTo "b" 2) []).withStatus .leaving] }
        (.leave (UniqueAddress.localTo "b" 2).address)) :=
  (receive_quiet_iff _ (by decide) _ (by exact trivial) (by decide)).mpr not_false

/-- A second mark of the same subject changes neither members nor reachability, moves the version,
takes the other node out of the seen table and is published. -/
theorem repeated_mark_not_quiet :
    let m := { new (.localTo "a" 1) [] with
      gossip := (allUp ["a", "b", "c"]).withReachability
        (Reachability.new.unreachable (.localTo "a" 1) (.localTo "c" 3)) |>.markSeen (.localTo "b" 2) }
    let out := m.receive (.markUnreachable (.localTo "a" 1) (.localTo "c" 3))
    out.1.gossip.members = m.gossip.members ∧ out.1.gossip.reachability = m.gossip.reachability ∧
      out.1.gossip.version ≠ m.gossip.version ∧ out.1.gossip.seen ≠ m.gossip.seen ∧
      out.2 = [.publish out.1.gossip] := by
  decide +kernel

end ClusterMembership

end Kairo.Cluster
