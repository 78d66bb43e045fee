import Kairo.Lib.CausalHistory
import Kairo.Cluster.GossipCluster

/-!
# Equal versions, equal gossips

As long as no member is lost, every gossip in the cluster is the join of the states that its vector
clock counts: the common gossip and, for each node, what the node held right after each of its own
changes (`GossipInv.explained`).  Two gossips with equal clocks are then equal
(`same_version_same_gossip`).  The rows of the reachability table are not joined but replaced as a
whole; each version of a row was written once, by its observer, and a gossip holds the row that
belongs to its version (`GossipInv.row`).

Losing members breaks this: a merge drops a downed member that only one side knows, so what is left
depends on the order of the merges (`LostJoin.same_version_different_members`).
-/

namespace Kairo.Cluster

open Kairo.Lib Gossip Option Function

/-- The gossip is held by a node or has been sent. -/
def GossipWorld.Holds (w : GossipWorld) (g : Gossip) : Prop :=
  (∃ n, ∃ m ∈ w.nodes n, m.gossip = g) ∨ ∃ p ∈ w.sent, p.2 = g

namespace GossipCluster

/-- Addresses in use render differently, so do the clock entries of the nodes; the nodes are members
of the common gossip and not buried in it. -/
structure WellFormed (C : GossipCluster) : Prop where
  keys : Set.InjOn UniqueAddress.orderingKey {x | x ∈ C.addresses}
  clocks : ∀ n ∈ C.nodes, ∀ k ∈ C.nodes, vclockNode n = vclockNode k → n = k
  base : C.base.WellFormed C.addresses
  members : ∀ n ∈ C.nodes, n ∈ C.base.addresses
  buried : ∀ n ∈ C.nodes, vclockNode n ∉ C.base.tombstones.keys.image vclockNode

/-! ## The invariant -/

/-- What the nodes have written: their gossips after each of their own changes, and each version of
their rows. -/
structure History where
  states : String → ℕ → (UniqueAddress → ℕ ×ₗ ℕᵒᵈ) × (UniqueAddress → ℕ)
  rows : UniqueAddress → ℕ → UniqueAddress → ReachabilityStatus

structure HistoryInv (C : GossipCluster) (H : History) : Prop where
  base : ∀ d, H.states d 0 = C.base.content
  idle : ∀ d, (∀ n ∈ C.nodes, vclockNode n ≠ d) → ∀ k, H.states d k = H.states d 0

structure GossipInv (C : GossipCluster) (H : History) (g : Gossip) : Prop where
  wellFormed : g.WellFormed C.addresses
  tombstones : g.tombstones.keys = C.base.tombstones.keys
  explained : Explains H.states g.version.get g.content
  row : ∀ o s, g.reachability.status o s = H.rows o (g.reachability.version o) s

/-- Nobody knows more changes of a node than the node itself. -/
structure Inv (C : GossipCluster) (H : History) (w : GossipWorld) : Prop where
  history : C.HistoryInv H
  gossips : ∀ g, w.Holds g → C.GossipInv H g
  nodes : ∀ n, ∀ m ∈ w.nodes n, n ∈ C.nodes ∧ m.selfNode = n ∧ m.initialized = true
  leading : ∀ n, ∀ m ∈ w.nodes n, ∀ g, w.Holds g →
    g.version.get (vclockNode n) ≤ m.gossip.version.get (vclockNode n) ∧
      g.reachability.version n ≤ m.gossip.reachability.version n

variable {C : GossipCluster} {H : History} {w : GossipWorld} {n : UniqueAddress} {w' : GossipWorld}

lemma GossipInv.alike {g g' : Gossip} (h : C.GossipInv H g) (ha : Alike g g') :
    C.GossipInv H g' := by
  have hm : g'.member = g.member := by
    funext x
    rw [Gossip.member, Gossip.member, ha.members]
  have hadr : g'.addresses = g.addresses := by rw [Gossip.addresses, Gossip.addresses, ha.members]
  have hc : g'.content = g.content := by rw [content, content, hm, ha.reachability]
  refine ⟨⟨?_, ?_, ?_, ?_, ?_⟩, ?_, ?_, ?_⟩
  · rw [ha.members]; exact h.wellFormed.sorted
  · rw [ha.members]; exact h.wellFormed.known
  · rw [ha.members]; exact h.wellFormed.present
  · rw [ha.members]; exact h.wellFormed.aged
  · rw [ha.reachability, hadr]; exact h.wellFormed.observed
  · rw [ha.tombstones]; exact h.tombstones
  · rw [ha.version, hc]; exact h.explained
  · rw [ha.reachability]; exact h.row

lemma Inv.mem_addresses (hC : C.WellFormed) (h : C.Inv H w) {g : Gossip} (hg : w.Holds g)
    (hn : n ∈ C.nodes) : n ∈ g.addresses := by
  have hle : C.base.content ≤ g.content := by
    rw [← h.history.base (vclockNode n)]
    exact (h.gossips g hg).explained.le_of_known (Nat.zero_le _)
  rw [← member_isSome_iff]
  exact isSome_of_factOf_le (hle.1 n) (member_isSome_iff.mpr (hC.members n hn))

/-! ## Own changes -/

/-- The history after a change of node `n` to `g'`. -/
def History.write (H : History) (n : UniqueAddress) (g' : Gossip) : History where
  states := recordAt H.states (vclockNode n) (g'.version.get (vclockNode n)) g'.content
  rows := recordAt H.rows n (g'.reachability.version n) (g'.reachability.status n)

lemma write_states_of_ne {g' : Gossip} {d : String} {k : ℕ}
    (h : ¬ (d = vclockNode n ∧ k = g'.version.get (vclockNode n))) :
    (H.write n g').states d k = H.states d k := recordAt_of_ne h

lemma write_rows_of_ne {n o : UniqueAddress} {g' : Gossip} {k : ℕ}
    (h : ¬ (o = n ∧ k = g'.reachability.version n)) : (H.write n g').rows o k = H.rows o k :=
  recordAt_of_ne h

lemma write_rows_self (n : UniqueAddress) (g' : Gossip) :
    (H.write n g').rows n (g'.reachability.version n) = g'.reachability.status n :=
  if_pos ⟨rfl, rfl⟩

section Change

variable {n : UniqueAddress} {g g₁ g' : Gossip} (hgrown : Grown C.addresses n g g₁)
  (he : g' = (g₁.incrementVersion n).onlySeen n)

include hgrown he

lemma get_version_change (k : String) :
    g'.version.get k = if k = vclockNode n then g.version.get (vclockNode n) + 1
      else g.version.get k := by
  subst he
  show (g₁.version.increment (vclockNode n)).get k = _
  rw [hgrown.version, VectorClock.get_increment]

lemma HistoryInv.write (h : C.HistoryInv H) (hn : n ∈ C.nodes) : C.HistoryInv (H.write n g') := by
  have hpos : g'.version.get (vclockNode n) = g.version.get (vclockNode n) + 1 := by
    rw [get_version_change hgrown he, if_pos rfl]
  refine ⟨fun d => ?_, fun d hd k => ?_⟩
  · rw [write_states_of_ne (by rw [hpos]; omega)]
    exact h.base d
  · rw [write_states_of_ne fun e => hd n hn e.1.symm, write_states_of_ne fun e => hd n hn e.1.symm]
    exact h.idle d hd k

lemma GossipInv.write_new (h : C.GossipInv H g) : C.GossipInv (H.write n g') g' := by
  have hget := get_version_change hgrown he
  have hcontent : g'.content = g₁.content := by rw [he]; rfl
  refine ⟨?_, ?_, ?_, fun o s => ?_⟩
  · rw [he]
    exact ⟨hgrown.wellFormed.sorted, hgrown.wellFormed.known, hgrown.wellFormed.present,
      hgrown.wellFormed.aged, hgrown.wellFormed.observed⟩
  · rw [he, ← h.tombstones, ← hgrown.tombstones]
    rfl
  · have hrec := h.explained.record (n := vclockNode n) (hgrown.content.trans hcontent.ge)
    have hfun : g'.version.get = fun k =>
        if k = vclockNode n then g.version.get (vclockNode n) + 1 else g.version.get k := funext hget
    rw [History.write, hget, if_pos rfl, hfun]
    exact hrec
  · by_cases ho : o = n
    · subst ho
      rw [write_rows_self]
    · have hothers := hgrown.others o ho
      rw [write_rows_of_ne fun e => ho e.1, he]
      show g₁.reachability.status o s = H.rows o (g₁.reachability.version o) s
      rw [hothers.1, hothers.2 s, h.row]

/-- Gossips that do not know of the change are explained as before. -/
lemma GossipInv.write_old (hg : C.GossipInv H g) {k : Gossip} (h : C.GossipInv H k)
    (hv : k.version.get (vclockNode n) ≤ g.version.get (vclockNode n))
    (hr : k.reachability.version n ≤ g.reachability.version n) : C.GossipInv (H.write n g') k := by
  have hget := get_version_change hgrown he (vclockNode n)
  rw [if_pos rfl] at hget
  refine ⟨h.wellFormed, h.tombstones, h.explained.record_of_lt (by omega), fun o s => ?_⟩
  by_cases hw : o = n ∧ k.reachability.version o = g'.reachability.version n
  · -- the row was not rewritten
    obtain ⟨rfl, hw⟩ := hw
    have hle : g.reachability.version o ≤ g'.reachability.version o := by
      rw [he]
      exact hgrown.content.2 o
    have heq : g'.reachability.version o = g.reachability.version o := by omega
    have hrow : g'.reachability.status o s = g.reachability.status o s := by
      rw [he] at heq ⊢
      exact hgrown.own heq s
    rw [hw, write_rows_self, hrow, hg.row, h.row, hw, heq]
  · rw [write_rows_of_ne hw]
    exact h.row o s

end Change

/-! ## Merges -/

lemma get_version_merge (hC : C.WellFormed) {g other : Gossip} (hg : C.GossipInv H g)
    (ho : C.GossipInv H other) (d : String) :
    (g.merge other).version.get d = max (g.version.get d) (other.version.get d) ∨
      ∀ n ∈ C.nodes, vclockNode n ≠ d := by
  have hkeys : (other.tombstones ∪ g.tombstones).keys = C.base.tombstones.keys := by
    rw [Finmap.keys_union, ho.tombstones, hg.tombstones, Finset.union_self]
  by_cases hd : d ∈ C.base.tombstones.keys.image vclockNode
  · refine .inr ?_
    rintro n hn rfl
    exact hC.buried n hn hd
  · refine .inl ?_
    rw [← VectorClock.get_merge]
    show (pruneTombstoned (other.tombstones ∪ g.tombstones) (g.version.merge other.version)).get d = _
    rw [pruneTombstoned, VectorClock.get, FinMap.count_retain, hkeys, if_pos (decide_eq_true hd)]
    rfl

lemma GossipInv.merge (hC : C.WellFormed) (hH : C.HistoryInv H) {g other : Gossip}
    (hg : C.GossipInv H g) (ho : C.GossipInv H other) (hk : g.MergeKeeps other) :
    C.GossipInv H (g.merge other) := by
  have hcontent := content_merge hC.keys hg.wellFormed ho.wellFormed hk
  refine ⟨wellFormed_merge hC.keys hg.wellFormed ho.wellFormed, ?_, ?_, fun o s => ?_⟩
  · show (other.tombstones ∪ g.tombstones).keys = _
    rw [Finmap.keys_union, ho.tombstones, hg.tombstones, Finset.union_self]
  · rw [hcontent]
    refine (hg.explained.sup ho.explained isLUB_pair).congr fun d => ?_
    rcases get_version_merge hC hg ho d with hd | hd
    · exact .inl hd.symm
    · exact .inr (hH.idle d hd)
  · have hv : (g.merge other).reachability.version o =
        max (g.reachability.version o) (other.reachability.version o) := congrFun
          (congrArg Prod.snd hcontent) o
    rw [status_merge hC.keys hg.wellFormed ho.wellFormed hk, hv]
    split_ifs with hle
    · rw [max_eq_left hle]
      exact hg.row o s
    · rw [max_eq_right (not_le.mp hle).le]
      exact ho.row o s

/-! ## Steps and runs -/

/-- Node `n` has handled a message and holds a gossip now that all its new messages carry. -/
structure Installed (w : GossipWorld) (n : UniqueAddress) (m' : ClusterMembership) (w' : GossipWorld) :
    Prop where
  nodes : ∀ k, w'.nodes k = if k = n then some m' else w.nodes k
  holds : ∀ g, w'.Holds g → g = m'.gossip ∨ w.Holds g

lemma installed_of_step {m' : ClusterMembership}
    {effects : List MembershipEffect} (hs : ∀ g ∈ gossipsOf effects, g = m'.gossip) :
    Installed w n m' { nodes := update w.nodes n (some m')
                       sent := w.sent ++ (gossipsOf effects).map (n, ·) } := by
  refine ⟨fun k => update_apply .., ?_⟩
  rintro g (⟨k, mk, hmk, rfl⟩ | ⟨p, hp, rfl⟩)
  · dsimp only at hmk
    rw [update_apply] at hmk
    split_ifs at hmk with hk
    · obtain rfl : m' = mk := by simpa using hmk
      exact .inl rfl
    · exact .inr (.inl ⟨k, mk, hmk, rfl⟩)
  · rcases List.mem_append.mp hp with hp | hp
    · exact .inr (.inr ⟨p, hp, rfl⟩)
    · obtain ⟨g, hg, rfl⟩ := List.mem_map.mp hp
      exact .inl (hs g hg)

/-- A node may hold a gossip that keeps its own entries ahead and others behind theirs. -/
lemma Inv.install {H' : History} {m m' : ClusterMembership}
    (h : C.Inv H w) (hm : w.nodes n = some m) (hw : Installed w n m' w')
    (hself : m'.selfNode = m.selfNode) (hinit : m'.initialized = m.initialized)
    (hH : C.HistoryInv H') (hold : ∀ g, w.Holds g → C.GossipInv H' g)
    (hnew : C.GossipInv H' m'.gossip)
    (hown : m.gossip.version.get (vclockNode n) ≤ m'.gossip.version.get (vclockNode n) ∧
      m.gossip.reachability.version n ≤ m'.gossip.reachability.version n)
    (hothers : ∀ k, k ≠ n → ∀ mk ∈ w.nodes k,
      m'.gossip.version.get (vclockNode k) ≤ mk.gossip.version.get (vclockNode k) ∧
        m'.gossip.reachability.version k ≤ mk.gossip.reachability.version k) : C.Inv H' w' := by
  refine ⟨hH, fun g hg => ?_, fun k mk hk => ?_, fun k mk hk g hg => ?_⟩
  · rcases hw.holds g hg with rfl | hg
    · exact hnew
    · exact hold g hg
  · rw [hw.nodes] at hk
    split_ifs at hk with hkn
    · obtain rfl : m' = mk := by simpa using hk
      subst hkn
      rw [hself, hinit]
      exact h.nodes k m hm
    · exact h.nodes k mk hk
  · rw [hw.nodes] at hk
    split_ifs at hk with hkn
    · obtain rfl : m' = mk := by simpa using hk
      subst hkn
      rcases hw.holds g hg with rfl | hg
      · exact ⟨le_rfl, le_rfl⟩
      · have hlead := h.leading k m hm g hg
        exact ⟨hlead.1.trans hown.1, hlead.2.trans hown.2⟩
    · rcases hw.holds g hg with rfl | hg
      · exact hothers k hkn mk hk
      · exact h.leading k mk hk g hg

lemma inv_receive (hC : C.WellFormed) (h : C.Inv H w) {m : ClusterMembership}
    {msg : ClusterMembershipMsg} (hm : w.nodes n = some m) (hcar : msg.carried ⊆ w.sent)
    (hc : C.ConservingMsg m msg) (hw : Installed w n (m.receive msg).1 w') : ∃ H', C.Inv H' w' := by
  obtain ⟨hn, hself, hinit⟩ := h.nodes n m hm
  have hheld : w.Holds m.gossip := .inl ⟨n, m, hm, rfl⟩
  have hg := h.gossips _ hheld
  have hout := receive_handled hC.keys hg.wellFormed (hself ▸ h.mem_addresses hC hheld hn) hinit hc
  have hup := hout.updates
  rw [hself] at hup
  cases hup with
  | keeps ha =>
    refine ⟨H, h.install hm hw hout.selfNode hout.initialized h.history h.gossips (hg.alike ha) ?_
      fun k hk mk hmk => ?_⟩ <;> rw [ha.version, ha.reachability]
    · exact ⟨le_rfl, le_rfl⟩
    · exact h.leading k mk hmk _ hheld
  | changes g₁ hgrown he =>
    have hget := get_version_change hgrown he
    have hcontent : m.gossip.content ≤ (m.receive msg).1.gossip.content := by
      rw [he]
      exact hgrown.content
    refine ⟨H.write n (m.receive msg).1.gossip, h.install hm hw hout.selfNode hout.initialized
      (.write hgrown he h.history hn) (fun g hgw => ?_) (.write_new hgrown he hg) ?_
      fun k hk mk hmk => ?_⟩
    · have hlead := h.leading n m hm g hgw
      exact .write_old hgrown he hg (h.gossips g hgw) hlead.1 hlead.2
    · rw [hget, if_pos rfl]
      exact ⟨Nat.le_succ _, hcontent.2 n⟩
    · have hlead := h.leading k mk hmk _ hheld
      have hne : vclockNode k ≠ vclockNode n := fun e =>
        hk (hC.clocks k (h.nodes k mk hmk).1 n hn e)
      have hrow : (m.receive msg).1.gossip.reachability.version k =
          m.gossip.reachability.version k := by
        rw [he]
        exact (hgrown.others k hk).1
      rw [hget, if_neg hne, hrow]
      exact hlead
  | takes p hp hle ha =>
    have hpw : w.Holds p.2 := .inr ⟨p, hcar hp, rfl⟩
    have hpg := h.gossips _ hpw
    refine ⟨H, h.install hm hw hout.selfNode hout.initialized h.history h.gossips (hpg.alike ha) ?_
      fun k hk mk hmk => ?_⟩ <;> rw [ha.version, ha.reachability]
    · exact ⟨hle _, (hg.explained.mono hpg.explained hle).2 n⟩
    · exact h.leading k mk hmk _ hpw
  | merges p hp hk ha =>
    have hpw : w.Holds p.2 := .inr ⟨p, hcar hp, rfl⟩
    have hpg := h.gossips _ hpw
    have hver : ∀ k ∈ C.nodes, (p.2.merge m.gossip).version.get (vclockNode k) =
        max (p.2.version.get (vclockNode k)) (m.gossip.version.get (vclockNode k)) := fun k hk =>
      (get_version_merge hC hpg hg _).resolve_right fun hne => hne k hk rfl
    have hrow : ∀ k, (p.2.merge m.gossip).reachability.version k =
        max (p.2.reachability.version k) (m.gossip.reachability.version k) :=
      congrFun (congrArg Prod.snd (content_merge hC.keys hpg.wellFormed hg.wellFormed hk))
    refine ⟨H, h.install hm hw hout.selfNode hout.initialized h.history h.gossips
      ((hpg.merge hC h.history hg hk).alike ha) ?_ fun k hk mk hmk => ?_⟩ <;>
      rw [ha.version, ha.reachability]
    · rw [hver n hn, hrow]
      exact ⟨le_max_right _ _, le_max_right _ _⟩
    · have h1 := h.leading k mk hmk _ hpw
      have h2 := h.leading k mk hmk _ hheld
      rw [hver k (h.nodes k mk hmk).1, hrow]
      exact ⟨max_le h1.1 h2.1, max_le h1.2 h2.2⟩

lemma inv_step (hC : C.WellFormed) (h : ∃ H, C.Inv H w) {a : Action} (hc : C.Conserving w a)
    (hs : step w a = some w') : ∃ H, C.Inv H w' := by
  obtain ⟨H, h⟩ := h
  cases a with
  | send n =>
    obtain ⟨m, hm, rfl⟩ := map_eq_some_iff.mp hs
    have hholds : ∀ g, GossipWorld.Holds { w with sent := w.sent ++ [(n, m.gossip)] } g →
        w.Holds g := by
      rintro g (hg | ⟨p, hp, rfl⟩)
      · exact .inl hg
      · rcases List.mem_append.mp hp with hp | hp
        · exact .inr ⟨p, hp, rfl⟩
        · rw [List.mem_singleton.mp hp]
          exact .inl ⟨n, m, hm, rfl⟩
    exact ⟨H, h.history, fun g hg => h.gossips g (hholds g hg), h.nodes,
      fun k mk hk g hg => h.leading k mk hk g (hholds g hg)⟩
  | receive n msg =>
    simp only [step] at hs
    split_ifs at hs with hcar
    obtain ⟨m, hm, rfl⟩ := map_eq_some_iff.mp hs
    have hcm := hc m hm
    obtain ⟨hn, hself, hinit⟩ := h.nodes n m hm
    have hheld : w.Holds m.gossip := .inl ⟨n, m, hm, rfl⟩
    have hout := receive_handled hC.keys (h.gossips _ hheld).wellFormed
      (hself ▸ h.mem_addresses hC hheld hn) hinit hcm
    exact inv_receive hC h hm hcar hcm (installed_of_step hout.sent)

lemma inv_start (hC : C.WellFormed) : ∃ H, C.Inv H C.start := by
  have hnodes : ∀ n, ∀ m ∈ C.start.nodes n, n ∈ C.nodes ∧ m.selfNode = n ∧ m.initialized = true ∧
      m.gossip = C.base := by
    intro n m hm
    simp only [start, mem_def] at hm
    split_ifs at hm with hn
    cases hm
    exact ⟨hn, rfl, rfl, rfl⟩
  have hholds : ∀ g, C.start.Holds g → g = C.base := by
    rintro g (⟨n, m, hm, rfl⟩ | ⟨p, hp, -⟩)
    · exact (hnodes n m hm).2.2.2
    · cases hp
  let H : History :=
    ⟨fun _ _ => C.base.content, fun o _ s => C.base.reachability.status o s⟩
  have hbase : C.GossipInv H C.base := ⟨hC.base, rfl, .const _ _, fun _ _ => rfl⟩
  refine ⟨H, ⟨fun _ => rfl, fun _ _ _ => rfl⟩, fun g hg => ?_, fun n m hm => ?_,
    fun n m hm g hg => ?_⟩
  · rw [hholds g hg]
    exact hbase
  · obtain ⟨h1, h2, h3, -⟩ := hnodes n m hm
    exact ⟨h1, h2, h3⟩
  · rw [hholds g hg, (hnodes n m hm).2.2.2]
    exact ⟨le_rfl, le_rfl⟩

/-- The two gossips agree on members, tombstones and reachability. -/
structure Agree (g g' : Gossip) : Prop where
  members : ∀ x, ((g.member x).map fun m => (m.status, m.upNumber)) =
    (g'.member x).map fun m => (m.status, m.upNumber)
  tombstones : g.tombstones.keys = g'.tombstones.keys
  reachability : ∀ o s, g.reachability.status o s = g'.reachability.status o s

/-- **Equal versions mean equal gossips.**  In every conserving run from a common gossip, two nodes
whose gossips have the same version agree on members, tombstones and reachability. -/
theorem same_version_same_gossip (hC : C.WellFormed) (hr : C.machine.Reach C.Conserving w)
    {n k : UniqueAddress} {a b : ClusterMembership} (ha : w.nodes n = some a) (hb : w.nodes k = some b)
    (hv : a.gossip.version.compare b.gossip.version = .same) : Agree a.gossip b.gossip := by
  obtain ⟨H, h⟩ : ∃ H, C.Inv H w := by
    refine hr.invariant ?_ fun s i t hs hok hst =>
      inv_step hC hs hok hst
    rintro s rfl
    exact inv_start hC
  have hA := h.gossips _ (.inl ⟨n, a, ha, rfl⟩)
  have hB := h.gossips _ (.inl ⟨k, b, hb, rfl⟩)
  have hclock : a.gossip.version.get = b.gossip.version.get :=
    funext ((VectorClock.compare_iff _ _).1.mp hv)
  have hcontent : a.gossip.content = b.gossip.content :=
    hA.explained.unique (hclock ▸ hB.explained)
  refine ⟨fun x => ?_, hA.tombstones.trans hB.tombstones.symm, fun o s => ?_⟩
  · exact eq_of_factOf_eq (fun m hm => hA.wellFormed.aged m (mem_of_member hm).1)
      (fun m hm => hB.wellFormed.aged m (mem_of_member hm).1) (congrFun (congrArg Prod.fst hcontent) x)
  · have hrow : a.gossip.reachability.version o = b.gossip.reachability.version o :=
      congrFun (congrArg Prod.snd hcontent) o
    rw [hA.row, hB.row, hrow]

end GossipCluster

/-! ## A member that one side loses -/

namespace LostJoin

def nodeA : UniqueAddress := .localTo "a" 1
def nodeB : UniqueAddress := .localTo "b" 2
def nodeD : UniqueAddress := .localTo "d" 3
def newX : UniqueAddress := .localTo "x" 4
def newY : UniqueAddress := .localTo "y" 5

def cluster : GossipCluster where
  base := .allUp ["a", "b", "d"]
  nodes := [nodeA, nodeB, nodeD]
  roles _ := []
  addresses := [nodeA, nodeB, nodeD, newX, newY]

open GossipCluster Action ClusterMembershipMsg

/-- The gossip of a node after its first messages. -/
def after (n : UniqueAddress) (msgs : List ClusterMembershipMsg) : Gossip :=
  ({ ClusterMembership.new n [] with gossip := cluster.base, initialized := true }.receiveAll
    msgs).gossip

/-- A gossip of `n` after some messages, delivered to `k`. -/
def deliver (n k : UniqueAddress) (msgs : List ClusterMembershipMsg) : Action :=
  receive k (gossip ⟨n, k, 0, after n msgs⟩ false)

/-- Node `a` lets `x` join and downs it.  Node `b` makes a change of its own and merges the second
gossip of `a`, which drops `x`.  Node `d` merges the first gossip of `a` before, and keeps `x`. -/
theorem same_version_different_members : ∃ w, cluster.machine.Reachable w ∧
    ((w.nodes nodeB).any fun b => (w.nodes nodeD).any fun d =>
      decide (b.gossip.version.compare d.gossip.version = .same) &&
        (!b.gossip.hasMember newX && d.gossip.hasMember newX)) = true :=
  Machine.Reach.exists_of_exec
    [receive nodeA (join ⟨newX, []⟩ false), receive nodeA (down newX),
      receive nodeB (markReachable nodeB nodeD),
      deliver nodeA nodeB [join ⟨newX, []⟩ false, down newX],
      deliver nodeA nodeD [join ⟨newX, []⟩ false],
      deliver nodeB nodeD [markReachable nodeB nodeD],
      deliver nodeA nodeD [join ⟨newX, []⟩ false, down newX]]
    rfl (by decide +kernel)

lemma cluster_wellFormed : cluster.WellFormed := by
  refine ⟨?_, by decide +kernel, ⟨?_, ?_, ?_, ?_, ?_⟩, by decide +kernel, by decide +kernel⟩
  · have h : ∀ x ∈ cluster.addresses, ∀ y ∈ cluster.addresses,
        x.orderingKey = y.orderingKey → x = y := by decide +kernel
    exact fun x hx y hy => h x hx y hy
  all_goals decide +kernel

/-- Two nodes that merge the joins of `a` and `b` in different orders. -/
theorem same_version_same_gossip_joins : ∃ w a d, cluster.machine.Reach cluster.Conserving w ∧
    w.nodes nodeA = some a ∧ w.nodes nodeD = some d ∧
    a.gossip.version.compare d.gossip.version = .same ∧ Agree a.gossip d.gossip := by
  obtain ⟨w, hr, hw⟩ : ∃ w, cluster.machine.Reach cluster.Conserving w ∧
      ((w.nodes nodeA).any fun a => (w.nodes nodeD).any fun d =>
        decide (a.gossip.version.compare d.gossip.version = .same)) = true :=
    Machine.Reach.exists_of_exec
      [receive nodeA (join ⟨newX, []⟩ false), receive nodeB (join ⟨newY, []⟩ false),
        deliver nodeB nodeA [join ⟨newY, []⟩ false], deliver nodeB nodeD [join ⟨newY, []⟩ false],
        deliver nodeA nodeD [join ⟨newX, []⟩ false]]
      rfl (by decide +kernel)
  obtain ⟨a, ha, hw⟩ := (any_eq_true ..).mp hw
  obtain ⟨d, hd, hw⟩ := (any_eq_true ..).mp hw
  have hv := of_decide_eq_true hw
  exact ⟨w, a, d, hr, ha, hd, hv, same_version_same_gossip cluster_wellFormed hr ha hd hv⟩

end LostJoin

end Kairo.Cluster
