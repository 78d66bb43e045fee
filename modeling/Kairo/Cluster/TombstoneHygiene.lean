import Kairo.Lib.Machine
import Kairo.Cluster.LocalChange

/-!
# Tombstoned nodes stay out of the gossip

A tombstone names a removed incarnation.  `Absent x g` says that nothing else in the gossip `g` is
about `x`, and `Clean owner g` that this holds of every tombstoned node and that none of them has the
clock entry of the local node.  Every operation of the membership actor keeps a gossip clean except
where it is told about a tombstoned node again or buries the local node; `Admits` are the messages
that do neither, and `Membership.tombstones_hygienic` is the result about runs.
-/

namespace Kairo.Cluster

open Kairo.Lib List FinMap Finmap

namespace Gossip

/-- Nothing in the gossip but a tombstone is about the node. -/
structure Absent (x : UniqueAddress) (g : Gossip) : Prop where
  members : ∀ m ∈ g.members, m.uniqueAddress ≠ x
  seen : x ∉ g.seen
  rows : x ∉ g.reachability.versions
  records : ∀ r ∈ g.reachability.records, r.observer ≠ x ∧ r.subject ≠ x
  clock : vclockNode x ∉ g.version.versions

instance (x : UniqueAddress) (g : Gossip) : Decidable (g.Absent x) :=
  decidable_of_iff ((∀ m ∈ g.members, m.uniqueAddress ≠ x) ∧ x ∉ g.seen ∧
      x ∉ g.reachability.versions ∧
      (∀ r ∈ g.reachability.records, r.observer ≠ x ∧ r.subject ≠ x) ∧
      vclockNode x ∉ g.version.versions)
    ⟨fun ⟨h1, h2, h3, h4, h5⟩ => ⟨h1, h2, h3, h4, h5⟩,
      fun h => ⟨h.members, h.seen, h.rows, h.records, h.clock⟩⟩

/-- No tombstoned node appears in the rest of the gossip. -/
def Hygienic (g : Gossip) : Prop := ∀ x ∈ g.tombstones.keys, g.Absent x

instance (g : Gossip) : Decidable g.Hygienic := inferInstanceAs (Decidable (∀ x ∈ _, _))

/-- No tombstoned node has the clock entry of `self`. -/
def Unburied (self : UniqueAddress) (g : Gossip) : Prop :=
  ∀ x ∈ g.tombstones.keys, vclockNode x ≠ vclockNode self

instance (self : UniqueAddress) (g : Gossip) : Decidable (g.Unburied self) :=
  inferInstanceAs (Decidable (∀ x ∈ _, _))

/-- The gossip is hygienic and the local node is not among the removed ones. -/
structure Clean (owner : UniqueAddress) (g : Gossip) : Prop where
  hygienic : g.Hygienic
  unburied : g.Unburied owner

/-! ## Operations on one absent node -/

namespace Absent

variable {x n : UniqueAddress} {g other : Gossip} {m : Member}

section

variable (h : g.Absent x) {observer subject : UniqueAddress}

include h

lemma stamp (hn : vclockNode x ≠ vclockNode n) : ((g.incrementVersion n).onlySeen n).Absent x := by
  have hne : x ≠ n := fun e => hn (by rw [e])
  refine ⟨h.members, ?_, h.rows, h.records, ?_⟩
  · intro hx
    exact hne (Finset.mem_singleton.mp hx)
  · intro hc
    rcases mem_insert.mp hc with e | hc
    · exact hn e
    · exact h.clock hc

lemma markSeen (hn : x ≠ n) : (g.markSeen n).Absent x := by
  refine ⟨h.members, ?_, h.rows, h.records, h.clock⟩
  intro hx
  rcases Finset.mem_insert.mp hx with e | hx
  · exact hn e
  · exact h.seen hx

lemma mergeSeen (ho : x ∉ other.seen) : (g.mergeSeen other).Absent x := by
  refine ⟨h.members, ?_, h.rows, h.records, h.clock⟩
  intro hx
  rcases Finset.mem_union.mp hx with hx | hx
  · exact h.seen hx
  · exact ho hx

lemma markDown : (g.markDown n).Absent x := by
  refine ⟨?_, fun hx => h.seen (Finset.mem_of_mem_erase hx), h.rows, h.records, h.clock⟩
  intro m hm
  obtain ⟨m', hm', rfl⟩ := mem_map.mp hm
  split_ifs <;> exact h.members m' hm'

lemma addMember (hm : m.uniqueAddress ≠ x) : (g.addMember m).Absent x := by
  refine ⟨?_, h.seen, h.rows, h.records, h.clock⟩
  intro m' hm'
  rcases mem_append.mp (mem_of_mem_normalizeMembers hm') with hm' | hm'
  · exact h.members m' hm'
  · exact mem_singleton.mp hm' ▸ hm

lemma updateMembers (changed : List Member) : (g.updateMembers changed).Absent x := by
  unfold Gossip.updateMembers
  split_ifs
  · exact h
  · refine ⟨?_, h.seen, h.rows, h.records, h.clock⟩
    intro m hm
    obtain ⟨m', hm', rfl⟩ := mem_map.mp (mem_of_mem_normalizeMembers hm)
    exact (replaced_uniqueAddress changed m').trans_ne (h.members m' hm')

lemma change (ho : observer ≠ x) (hs : subject ≠ x) (status : ReachabilityStatus) :
    (g.withReachability (g.reachability.change observer subject status)).Absent x := by
  rcases g.reachability.change_cases observer subject status with e | hobs
  · rw [e]
    exact ⟨h.members, h.seen, h.rows, h.records, h.clock⟩
  · refine ⟨h.members, h.seen, ?_, ?_, h.clock⟩
    · intro hx
      have hx' : x ∈ g.reachability.versions.insert observer (g.reachability.version observer + 1) :=
        hobs.versions ▸ hx
      rcases mem_insert.mp hx' with e | hx'
      · exact ho e.symm
      · exact h.rows hx'
    · intro r hr
      rcases hobs.records r hr with hr | ⟨h1, h2⟩
      · exact h.records r hr
      · exact ⟨h1 ▸ ho, h2 ▸ hs⟩

/-- A reachable observation changes only what an earlier record was about. -/
lemma reachable (observer subject : UniqueAddress) :
    (g.withReachability (g.reachability.reachable observer subject)).Absent x := by
  cases hf : g.reachability.records.find? (·.isAbout observer subject) with
  | none =>
    have e : g.reachability.reachable observer subject = g.reachability := by
      simp [Reachability.reachable, Reachability.change, hf]
    rw [e]
    exact ⟨h.members, h.seen, h.rows, h.records, h.clock⟩
  | some r =>
    have hr := h.records r (mem_of_find?_eq_some hf)
    have ha := find?_some hf
    simp only [ReachabilityRecord.isAbout, Bool.and_eq_true, decide_eq_true_eq] at ha
    exact h.change (ha.1 ▸ hr.1) (ha.2 ▸ hr.2) .reachable

end

/-- Removing a node leaves nothing about it, nor about the nodes that were absent before. -/
lemma remove (h : n = x ∨ g.Absent x) (timestamp : ℕ) : (g.remove n timestamp).Absent x := by
  refine ⟨?_, ?_, ?_, ?_, ?_⟩
  · intro m hm
    obtain ⟨hm, hne⟩ := mem_filter.mp hm
    rcases h with rfl | h
    · exact of_decide_eq_true hne
    · exact h.members m hm
  · intro hx
    obtain ⟨hne, hx⟩ := Finset.mem_erase.mp hx
    rcases h with rfl | h
    · exact hne rfl
    · exact h.seen hx
  · intro hx
    rw [Gossip.remove, Reachability.remove, mem_iff_isSome, lookup_retain] at hx
    rcases h with rfl | h
    · simp at hx
    · rw [lookup_eq_none.mpr h.rows] at hx
      simp at hx
  · intro r hr
    obtain ⟨hr, hne⟩ := mem_filter.mp hr
    rcases h with rfl | h
    · have hne := of_decide_eq_true hne
      exact ⟨fun e => hne.1 (by simp [e]), fun e => hne.2 (by simp [e])⟩
    · exact h.records r hr
  · intro hc
    obtain ⟨hne, hc⟩ := mem_erase.mp hc
    rcases h with rfl | h
    · exact hne rfl
    · exact h.clock hc

end Absent

/-- A merged entry of a tombstoned node is an entry of both sides. -/
lemma mem_both_of_mem_mergeMembers {T : FinMap UniqueAddress ℕ} {left right : List Member}
    (h : m ∈ mergeMembers T left right) (ht : m.uniqueAddress ∈ T) :
    (∃ l ∈ left, l.uniqueAddress = m.uniqueAddress) ∧
      ∃ r ∈ right, r.uniqueAddress = m.uniqueAddress := by
  rcases mergedFrom_of_mem h with ⟨hk, -⟩ | ⟨l, hl, r, hr, he, rfl⟩
  · exact absurd ht hk.1
  · have ha := Member.highestPriority_uniqueAddress he
    exact ⟨⟨l, hl, ha.symm⟩, r, hr, (ha.trans he).symm⟩

/-- A merge keeps nothing of a node that one side has buried. -/
lemma Absent.merge {x : UniqueAddress} {g other : Gossip} (hx : x ∈ other.tombstones ∪ g.tombstones)
    (h : g.Absent x ∨ other.Absent x) : (g.merge other).Absent x := by
  have hm : ∀ m ∈ (g.merge other).members, m.uniqueAddress ≠ x := by
    intro m hm e
    obtain ⟨⟨l, hl, el⟩, r, hr, er⟩ := mem_both_of_mem_mergeMembers hm (e ▸ hx)
    rcases h with h | h
    · exact h.members l hl (el.trans e)
    · exact h.members r hr (er.trans e)
  have hnot : x ∉ (g.merge other).addresses.dedup := by
    intro hmem
    obtain ⟨m, hm', e⟩ := mem_map.mp (mem_dedup.mp hmem)
    exact hm m hm' e
  have hw := Reachability.within_merge g.reachability other.reachability
    (g.merge other).addresses.dedup
  rw [← reachability_merge] at hw
  refine ⟨hm, Finset.notMem_empty _, ?_, ?_, ?_⟩
  · intro hr
    exact hnot (hw.2 x (mem_keys.mpr hr))
  · intro r hr
    exact ⟨fun e => hnot (e ▸ (hw.1 r hr).1), fun e => hnot (e ▸ (hw.1 r hr).2)⟩
  · intro hc
    have hk : vclockNode x ∈ (other.tombstones ∪ g.tombstones).keys.image vclockNode :=
      Finset.mem_image.mpr ⟨x, mem_keys.mpr hx, rfl⟩
    rw [Gossip.merge, pruneTombstoned, mem_iff_isSome, lookup_retain] at hc
    simp only [hk, not_true_eq_false, decide_false] at hc
    cases hc

/-! ## Operations on a clean gossip -/

namespace Clean

variable {self n : UniqueAddress} {g g' other : Gossip}

lemma new (self : UniqueAddress) : Gossip.new.Clean self := by
  constructor
  all_goals
    intro x hx
    cases hx

section

variable (h : g.Clean self)

include h

/-- An operation that buries nobody and keeps absent nodes absent. -/
lemma of_tombstones (ht : g'.tombstones = g.tombstones)
    (ha : ∀ x, x ∈ g.tombstones.keys → vclockNode x ≠ vclockNode self → g.Absent x → g'.Absent x) :
    g'.Clean self :=
  ⟨fun x hx => ha x (ht ▸ hx) (h.unburied x (ht ▸ hx)) (h.hygienic x (ht ▸ hx)),
    fun x hx => h.unburied x (ht ▸ hx)⟩

lemma self_notMem : self ∉ g.tombstones.keys :=
  fun hs => h.unburied self hs rfl

lemma ne_member (hm : m ∈ g.members) {x : UniqueAddress} (hx : x ∈ g.tombstones.keys) :
    m.uniqueAddress ≠ x :=
  (h.hygienic x hx).members m hm

lemma stamp : ((g.incrementVersion self).onlySeen self).Clean self :=
  h.of_tombstones rfl fun _ _ hn ha => ha.stamp hn

lemma markSeen : (g.markSeen self).Clean self :=
  h.of_tombstones rfl fun _ _ hn ha => ha.markSeen fun e => hn (by rw [e])

lemma markDown (n : UniqueAddress) : (g.markDown n).Clean self :=
  h.of_tombstones rfl fun _ _ _ ha => ha.markDown

lemma addMember (hm : m.uniqueAddress ∉ g.tombstones.keys) : (g.addMember m).Clean self :=
  h.of_tombstones rfl fun _ hx _ ha => ha.addMember fun e => hm (e ▸ hx)

lemma updateMembers (changed : List Member) : (g.updateMembers changed).Clean self := by
  refine h.of_tombstones ?_ fun _ _ _ ha => ha.updateMembers changed
  unfold Gossip.updateMembers
  split_ifs <;> rfl

lemma change (ho : observer ∉ g.tombstones.keys) (hs : subject ∉ g.tombstones.keys)
    (status : ReachabilityStatus) :
    (g.withReachability (g.reachability.change observer subject status)).Clean self := by
  refine h.of_tombstones rfl fun x hx _ ha => ha.change ?_ ?_ status
  · rintro rfl
    exact ho hx
  · rintro rfl
    exact hs hx

lemma remove (hn : vclockNode n ≠ vclockNode self) (timestamp : ℕ) :
    (g.remove n timestamp).Clean self := by
  have split : ∀ x ∈ (g.remove n timestamp).tombstones.keys, n = x ∨ x ∈ g.tombstones.keys := by
    intro x hx
    rcases mem_insert.mp (mem_keys.mp hx) with e | hx
    · exact .inl e.symm
    · exact .inr (mem_keys.mpr hx)
  refine ⟨fun x hx => Absent.remove ((split x hx).imp_right (h.hygienic x)) timestamp, ?_⟩
  intro x hx
  rcases split x hx with rfl | hx
  · exact hn
  · exact h.unburied x hx

lemma merge (ho : other.Clean self) : (g.merge other).Clean self := by
  have split : ∀ x ∈ (g.merge other).tombstones.keys,
      x ∈ other.tombstones.keys ∨ x ∈ g.tombstones.keys := by
    intro x hx
    simpa only [Finmap.mem_keys] using Finmap.mem_union.mp (Finmap.mem_keys.mp hx)
  constructor
  · intro x hx
    refine Absent.merge (mem_keys.mp hx) ?_
    rcases split x hx with hx | hx
    · exact .inr (ho.hygienic x hx)
    · exact .inl (h.hygienic x hx)
  · intro x hx
    rcases split x hx with hx | hx
    · exact ho.unburied x hx
    · exact h.unburied x hx

lemma applyTo (p : DowningPlan) : (p.applyTo g self).Clean self := by
  have fold : ∀ (nodes : List UniqueAddress) (acc : Gossip × Bool), acc.1.Clean self →
      (nodes.foldl DowningPlan.applyNode acc).1.Clean self := by
    intro nodes
    induction nodes with
    | nil => intro acc ha; exact ha
    | cons node nodes ih =>
      intro acc ha
      refine ih _ ?_
      unfold DowningPlan.applyNode
      split_ifs
      · exact ha.markDown node
      · exact ha
  have hf := fold p.nodesToDown (g, false) h
  unfold DowningPlan.applyTo
  dsimp only
  split
  · exact hf.stamp
  · exact hf

end

end Clean

end Gossip

/-! ## Turns of the membership actor -/

namespace ClusterMembership

open Gossip

/-- The gossip of the actor is clean for its own node. -/
def Clean (m : ClusterMembership) : Prop := m.gossip.Clean m.selfNode

/-- The leader would not remove the local node. -/
def KeepsSelf (m : ClusterMembership) : Prop :=
  ∀ x ∈ LeaderActions.removedMembers m.gossip m.exitingConfirmed,
    vclockNode x ≠ vclockNode m.selfNode

/-- The joining node was not removed before and does not replace the local node. -/
def AdmitsJoin (m : ClusterMembership) (j : Join) : Prop :=
  j.node ∉ m.gossip.tombstones.keys ∧ m.KeepsSelf ∧
    ∀ x ∈ m.gossip.members, x.uniqueAddress.address = j.node.address → x.uniqueAddress ≠ j.node →
      x.status = .down → vclockNode x.uniqueAddress ≠ vclockNode m.selfNode

/-- The gossip of a peer is hygienic and does not name the local node as removed. -/
def AdmitsGossip (m : ClusterMembership) (g : Gossip) : Prop :=
  g.Hygienic ∧ g.Unburied m.selfNode

/-- **The messages that keep the gossip clean**: joins and unreachable marks are not about tombstoned
nodes, the gossips of peers are hygienic, and no message lets the node bury itself. -/
def Admits (m : ClusterMembership) : ClusterMembershipMsg → Prop
  | .joinSelf => m.AdmitsJoin ⟨m.selfNode, m.roles⟩
  | .join j _ => m.AdmitsJoin j
  | .welcome w => m.AdmitsGossip w.gossip
  | .gossip e _ => m.AdmitsGossip e.gossip ∧
      (e.gossip.version.compare m.gossip.version = .same →
        ∀ x ∈ m.gossip.seen, x ∉ e.gossip.tombstones.keys)
  | .markUnreachable observer subject =>
    observer ∉ m.gossip.tombstones.keys ∧ subject ∉ m.gossip.tombstones.keys
  | .leaderActionsTick => m.KeepsSelf
  | _ => True

instance (m : ClusterMembership) : Decidable m.KeepsSelf :=
  inferInstanceAs (Decidable (∀ x ∈ _, _))

instance (m : ClusterMembership) (j : Join) : Decidable (m.AdmitsJoin j) :=
  inferInstanceAs (Decidable (_ ∧ _ ∧ ∀ x ∈ _, _))

instance (m : ClusterMembership) (g : Gossip) : Decidable (m.AdmitsGossip g) :=
  inferInstanceAs (Decidable (_ ∧ _))

instance (m : ClusterMembership) (msg : ClusterMembershipMsg) : Decidable (m.Admits msg) := by
  refine msg.casesOn ?_ ?_ ?_ ?_ ?_ ?_ ?_ ?_ ?_ ?_ ?_ ?_ <;> intros <;> unfold Admits <;> infer_instance

variable {m : ClusterMembership} {g : Gossip}

lemma clean_install (m : ClusterMembership) (hg : g.Clean m.selfNode) :
    (m.install g).1.Clean := by
  rw [install_fst]
  exact hg

lemma clean_updateLatestGossip (m : ClusterMembership) (hg : g.Clean m.selfNode) :
    (m.updateLatestGossip g).1.Clean :=
  m.clean_install hg.stamp

lemma updateLatestGossip_fst (m : ClusterMembership) (g : Gossip) :
    (m.updateLatestGossip g).1 =
      { m with gossip := (g.incrementVersion m.selfNode).onlySeen m.selfNode } :=
  install_fst m _

lemma clean_runLeaderActions (h : m.Clean) (hk : m.KeepsSelf) : m.runLeaderActions.1.Clean := by
  have fold : ∀ (nodes : List UniqueAddress) (g : Gossip), g.Clean m.selfNode →
      (∀ x ∈ nodes, vclockNode x ≠ vclockNode m.selfNode) →
      (nodes.foldl (fun g n => g.remove n (m.timestamp + 1)) g).Clean m.selfNode := by
    intro nodes
    induction nodes with
    | nil => intro g hg _; exact hg
    | cons n nodes ih =>
      intro g hg hn
      exact ih _ (hg.remove (hn n (by simp)) _) fun x hx => hn x (mem_cons_of_mem _ hx)
  unfold runLeaderActions
  split_ifs
  · exact h
  · dsimp only
    split
    · exact h
    · rename_i outcome ho
      unfold LeaderActions.onConvergence at ho
      dsimp only at ho
      split_ifs at ho with hb he
      · -- nothing to do
        cases ho
        split_ifs <;> exact h
      · cases ho
        split_ifs
        · exact (fold _ _ (Gossip.Clean.updateMembers h _) hk).stamp
        · exact h

lemma keepsSelf_join (hk : m.KeepsSelf)
    (hm : ∀ x ∈ g.members, x ∈ m.gossip.members ∨ x.status = .joining)
    (hr : g.reachability = m.gossip.reachability) : { m with gossip := g }.KeepsSelf := by
  intro x hx
  obtain ⟨y, hy, rfl⟩ := mem_map.mp hx
  obtain ⟨hy, hp⟩ := mem_filter.mp hy
  have hp := of_decide_eq_true hp
  rcases hm y hy with hy | hj
  · refine hk _ (mem_map.mpr ⟨y, mem_filter.mpr ⟨hy, ?_⟩, rfl⟩)
    exact decide_eq_true (hr ▸ hp)
  · rw [hj] at hp
    cases hp.1

lemma clean_joined (hg : g.Clean m.selfNode) (hk : m.KeepsSelf)
    (hm : ∀ x ∈ g.members, x ∈ m.gossip.members ∨ x.status = .joining)
    (hr : g.reachability = m.gossip.reachability) (node : UniqueAddress)
    (effects effects' : List MembershipEffect) :
    let out := ({ m with initialized := true }.updateLatestGossip g).1
    (if node = out.selfNode then (out.runLeaderActions.1, effects) else (out, effects')).1.Clean := by
  have hup := clean_updateLatestGossip { m with initialized := true } hg
  intro out
  split_ifs
  · refine clean_runLeaderActions hup ?_
    show ClusterMembership.KeepsSelf (updateLatestGossip _ g).1
    rw [updateLatestGossip_fst]
    exact keepsSelf_join hk hm hr
  · exact hup

lemma clean_joinNode (h : m.Clean) {j : Join} (ha : m.AdmitsJoin j) (replyTo : Bool) :
    (m.joinNode j replyTo).1.Clean := by
  obtain ⟨hj, hk, hrep⟩ := ha
  unfold joinNode
  split
  · rename_i existing hf
    have hmem := mem_of_find?_eq_some hf
    have haddr : existing.uniqueAddress.address = j.node.address := by simpa using find?_some hf
    split_ifs with he hd
    · exact h
    · have hn := hrep existing hmem haddr he hd
      refine clean_updateLatestGossip _ ((Gossip.Clean.remove h hn _).addMember ?_)
      intro hin
      rcases mem_insert.mp (mem_keys.mp hin) with e | hin
      · exact he e.symm
      · exact hj (mem_keys.mpr hin)
    · refine clean_updateLatestGossip m (Gossip.Clean.markDown ?_ _)
      exact Gossip.Clean.change h (Gossip.Clean.self_notMem h)
        (fun hx => Gossip.Clean.ne_member h hmem hx rfl) .terminated
  · have hadd : (m.gossip.addMember (Member.new j.node j.roles)).Clean m.selfNode :=
      Gossip.Clean.addMember h hj
    set g := m.gossip.addMember (Member.new j.node j.roles)
    set g' := if g.hasMember m.selfNode then g else g.addMember (Member.new m.selfNode m.roles)
      with hg'
    have hclean : g'.Clean m.selfNode := by
      rw [hg']
      split_ifs
      · exact hadd
      · exact hadd.addMember hadd.self_notMem
    have hmem : ∀ x ∈ g'.members, x ∈ m.gossip.members ∨ x.status = .joining := by
      have hgm : ∀ x ∈ g.members, x ∈ m.gossip.members ∨ x.status = .joining := by
        intro x hx
        refine (mem_append.mp (mem_of_mem_normalizeMembers hx)).imp_right fun hx => ?_
        rw [mem_singleton.mp hx, Member.new_status]
      rw [hg']
      split_ifs
      · exact hgm
      · intro x hx
        rcases mem_append.mp (mem_of_mem_normalizeMembers hx) with hx | hx
        · exact hgm x hx
        · exact .inr (by rw [mem_singleton.mp hx, Member.new_status])
    have hreach : g'.reachability = m.gossip.reachability := by
      rw [hg']
      split_ifs <;> rfl
    exact clean_joined hclean hk hmem hreach _ _ _

lemma clean_receiveGossip (h : m.Clean) {e : GossipEnvelope}
    (ha : m.AdmitsGossip e.gossip) (hseen : e.gossip.version.compare m.gossip.version = .same →
      ∀ x ∈ m.gossip.seen, x ∉ e.gossip.tombstones.keys) (replyTo : Bool) :
    (m.receiveGossip e replyTo).1.Clean := by
  have hg : e.gossip.Clean m.selfNode := ⟨ha.1, ha.2⟩
  have hwin : (m.winningGossip e.gossip).1.Clean m.selfNode := by
    unfold winningGossip
    split
    · rename_i hsame
      exact hg.of_tombstones rfl fun x hx _ hx' => hx'.mergeSeen fun hs => hseen hsame x hs hx
    · exact h
    · exact hg
    · exact hg.merge h
  unfold receiveGossip
  split_ifs
  · exact h
  · dsimp only
    split_ifs <;> exact clean_install m hwin.markSeen

lemma clean_downNode (h : m.Clean) (node : UniqueAddress) : (m.downNode node).1.Clean := by
  unfold downNode
  split_ifs
  · exact clean_updateLatestGossip m (Gossip.Clean.markDown h node)
  · exact h

/-- **One turn.** -/
theorem clean_receive (h : m.Clean) {msg : ClusterMembershipMsg} (ha : m.Admits msg) :
    (m.receive msg).1.Clean := by
  cases msg with
  | joinSelf => exact clean_joinNode h ha false
  | join j replyTo => exact clean_joinNode h ha replyTo
  | welcome w =>
    show Clean (welcomed m w).1
    unfold welcomed
    split_ifs
    · exact h
    · exact Gossip.Clean.markSeen ⟨ha.1, ha.2⟩
  | gossip e replyTo => exact clean_receiveGossip h ha.1 ha.2 replyTo
  | markUnreachable observer subject =>
    exact clean_updateLatestGossip m (Gossip.Clean.change h ha.1 ha.2 .unreachable)
  | markReachable observer subject =>
    exact clean_updateLatestGossip m
      (Gossip.Clean.of_tombstones h rfl fun _ _ _ hx => hx.reachable observer subject)
  | leave address =>
    show Clean (leaveAddress m address).1
    unfold leaveAddress
    split
    · exact h
    · split_ifs
      · exact clean_updateLatestGossip m (Gossip.Clean.updateMembers h _)
      · exact h
  | down node => exact clean_downNode h node
  | downAddress address =>
    show Clean (ClusterMembership.downAddress m address).1
    unfold ClusterMembership.downAddress
    split
    · exact h
    · exact clean_downNode h _
  | exitingConfirmed node =>
    show Clean (if _ then _ else _)
    split_ifs <;> exact h
  | applyDowningDecision d => exact clean_install m (Gossip.Clean.applyTo h _)
  | leaderActionsTick => exact clean_runLeaderActions h ha

end ClusterMembership

/-! ## Runs of a fresh node -/

namespace Membership

def machine (selfNode : UniqueAddress) (roles : List String) :
    Machine ClusterMembership ClusterMembershipMsg where
  init m := m = .new selfNode roles
  step m msg := some (m.receive msg).1

variable {selfNode : UniqueAddress} {roles : List String}

/-- **Tombstones are kept apart**: in every run of a fresh node whose messages are all admitted, no
tombstoned node appears in the rest of the gossip. -/
theorem tombstones_hygienic {m : ClusterMembership}
    (h : (machine selfNode roles).Reach (·.Admits ·) m) :
    m.gossip.Hygienic := by
  have hclean : m.Clean := by
    refine h.invariant ?_ ?_
    · rintro s rfl
      exact Gossip.Clean.new selfNode
    · rintro s msg t hs ha ht
      cases ht
      exact ClusterMembership.clean_receive hs ha
  exact hclean.hygienic

end Membership

/-! ## A delayed join -/

namespace DelayedJoin

def a : UniqueAddress := .localTo "a" 1
def b : UniqueAddress := .localTo "b" 2

/-- The node `a` lets `b` join, downs it and removes it. -/
def removal : List ClusterMembershipMsg :=
  [.joinSelf, .join ⟨b, []⟩ true, .markUnreachable a b, .down b, .leaderActionsTick]

/-- A join of `b` that was delayed brings the removed incarnation back. -/
theorem tombstoned_member :
    ∃ m, (Membership.machine a []).Reachable m ∧ ¬ m.gossip.Hygienic :=
  Machine.Reach.exists_of_exec (removal ++ [.join ⟨b, []⟩ true]) rfl (by decide +kernel)

theorem hygienic_removal :
    ∃ m, (Membership.machine a []).Reach (·.Admits ·) m ∧ b ∈ m.gossip.tombstones.keys ∧
      m.gossip.Hygienic := by
  obtain ⟨m, hr, hm⟩ := Machine.Reach.exists_of_exec (M := Membership.machine a [])
    (c := (·.Admits ·)) (P := fun m => b ∈ m.gossip.tombstones.keys)
    removal rfl (by decide +kernel)
  exact ⟨m, hr, hm, Membership.tombstones_hygienic hr⟩

end DelayedJoin

end Kairo.Cluster
