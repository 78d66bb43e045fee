import Kairo.Cluster.GossipAssoc

/-!
# The order of a merge

Merging two gossips in either order gives the same facts, and merging a gossip with itself keeps them,
as long as members can be told apart by what the walk compares and observations are about members.
-/

namespace Kairo.Cluster

open Kairo.Lib DownOnOneSide List Finset Reachability Finmap Gossip

/-- Two facts about a node that are ordered alike are one. -/
lemma Member.highestPriority_comm {l r : Member} (ha : l.uniqueAddress = r.uniqueAddress)
    (hr : l.roles = r.roles) (hl : ∀ k ∈ l.upNumber, k < u64Max) (hr' : ∀ k ∈ r.upNumber, k < u64Max) :
    l.highestPriority r = r.highestPriority l := by
  have hfact : factOf (some (l.highestPriority r)) = factOf (some (r.highestPriority l)) := by
    rw [factOf_highestPriority ha, factOf_highestPriority ha.symm, sup_comm]
  have haged : ∀ a b : Member, (∀ k ∈ a.upNumber, k < u64Max) → (∀ k ∈ b.upNumber, k < u64Max) →
      ∀ m ∈ some (a.highestPriority b), ∀ k ∈ m.upNumber, k < u64Max := by
    rintro a b h h' m ⟨⟩
    rcases Member.highestPriority_eq_or a b with e | e <;> rw [e] <;> assumption
  have heq := eq_of_factOf_eq (haged l r hl hr') (haged r l hr' hl) hfact
  have hroles : (l.highestPriority r).roles = (r.highestPriority l).roles := by
    rcases highestPriority_eq_or l r with e | e <;> rcases highestPriority_eq_or r l with e' | e' <;>
      simp only [e, e', hr]
  have haddr : (l.highestPriority r).uniqueAddress = (r.highestPriority l).uniqueAddress := by
    rw [highestPriority_uniqueAddress ha, highestPriority_uniqueAddress ha.symm, ha]
  generalize l.highestPriority r = x at *
  generalize r.highestPriority l = y at *
  cases x
  cases y
  simp_all

namespace Gossip

/-- Two gossips agree on members, clock, tombstoned addresses and observations. -/
structure Coincide (g h : Gossip) : Prop where
  members : g.members = h.members
  version : ∀ d, g.version.get d = h.version.get d
  tombstones : g.tombstones.keys = h.tombstones.keys
  rows : ∀ o, g.reachability.version o = h.reachability.version o
  status : ∀ o s, g.reachability.status o s = h.reachability.status o s

/-- No tombstoned node is a member or has a clock entry. -/
def TombstonesApart (g : Gossip) : Prop :=
  ∀ n ∈ g.tombstones, n ∉ g.addresses ∧ g.version.get (vclockNode n) = 0

variable {a b : Gossip}

lemma InNormalForm.toSorted {U : List UniqueAddress} (h : a.InNormalForm)
    (hU : Set.InjOn UniqueAddress.orderingKey {x | x ∈ U}) (ha : ∀ x ∈ a.addresses, x ∈ U) :
    a.Sorted U :=
  have hk : ∀ m ∈ a.members, m.uniqueAddress ∈ U := fun _ hm => ha _ (mem_map_of_mem hm)
  ⟨h.keySorted hU hk, hk⟩

lemma keptAlone_union_comm (T T' : FinMap UniqueAddress ℕ) (m : Member) :
    KeptAlone (T ∪ T') m ↔ KeptAlone (T' ∪ T) m := by
  rw [KeptAlone, KeptAlone, Finmap.mem_union, Finmap.mem_union, or_comm]

lemma get_version_merge (a b : Gossip) (d : String) : (a.merge b).version.get d =
    if d ∈ (b.tombstones ∪ a.tombstones).keys.image vclockNode then 0
    else max (a.version.get d) (b.version.get d) := by
  refine (FinMap.count_retain _ _ _).trans ?_
  rw [← VectorClock.get_merge]
  by_cases hd : d ∈ (b.tombstones ∪ a.tombstones).keys.image vclockNode <;> simp only [hd] <;> rfl

section

variable {U : List UniqueAddress} (hU : Set.InjOn UniqueAddress.orderingKey {x | x ∈ U})
  (ha : a.Sorted U) (hb : b.Sorted U)

include hU ha

lemma members_merge_self : (a.merge a).members = a.members := by
  refine (ha.merge hU ha).sorted.ext ha.sorted fun x => (ha.member_merge hU ha x).trans ?_
  show _ = a.member x
  cases a.member x with
  | none => rfl
  | some m => exact congrArg some ((Member.highestPriority_eq_or m m).elim id id)

include hb

lemma members_merge_comm
    (hsame : ∀ l ∈ a.members, ∀ r ∈ b.members, l.uniqueAddress = r.uniqueAddress → l.roles = r.roles)
    (haged : ∀ m ∈ a.members ++ b.members, ∀ k ∈ m.upNumber, k < u64Max) :
    (a.merge b).members = (b.merge a).members := by
  refine (ha.merge hU hb).sorted.ext (hb.merge hU ha).sorted fun x => ?_
  refine (ha.member_merge hU hb x).trans (Eq.trans ?_ (hb.member_merge hU ha x).symm)
  cases hl : a.member x with
  | none =>
    cases b.member x with
    | none => rfl
    | some r => simp only [mergedEntry, keptAlone_union_comm]
  | some l =>
    cases hr : b.member x with
    | none => simp only [mergedEntry, keptAlone_union_comm]
    | some r =>
      obtain ⟨hlm, hlx⟩ := mem_of_member hl
      obtain ⟨hrm, hrx⟩ := mem_of_member hr
      have he := hlx.trans hrx.symm
      exact congrArg some (Member.highestPriority_comm he (hsame l hlm r hrm he)
        (haged l (mem_append_left _ hlm)) (haged r (mem_append_right _ hrm)))

end

lemma coincide_merge_comm (hm : (a.merge b).members = (b.merge a).members)
    (hrows : ∀ o, a.reachability.version o = b.reachability.version o →
      ∀ s, a.reachability.status o s = b.reachability.status o s) :
    Coincide (a.merge b) (b.merge a) where
  members := hm
  version d := by
    rw [get_version_merge, get_version_merge, max_comm, keys_union, keys_union,
      union_comm]
  tombstones := by
    show (b.tombstones ∪ a.tombstones).keys = (a.tombstones ∪ b.tombstones).keys
    rw [keys_union, keys_union, union_comm]
  rows o := by
    rw [reachability_merge, reachability_merge, version_merge_eq,
      version_merge_eq, addresses, addresses, hm, max_comm]
  status o s := by
    rw [reachability_merge, reachability_merge, status_merge_eq _ _ (nodup_dedup _),
      status_merge_eq _ _ (nodup_dedup _), addresses, addresses, hm]
    congr 1
    split_ifs with h1 h2 h2
    · exact hrows o (le_antisymm h2 h1) s
    · rfl
    · rfl
    · omega

lemma coincide_merge_self (hm : (a.merge a).members = a.members)
    (htomb : a.TombstonesApart)
    (hw : a.reachability.Within a.addresses) : Coincide (a.merge a) a where
  members := hm
  version d := by
    rw [get_version_merge, max_self, keys_union, union_self]
    split_ifs with hd
    · obtain ⟨n, hn, rfl⟩ := mem_image.mp hd
      exact (htomb n (mem_keys.mp hn)).2.symm
    · rfl
  tombstones := by
    show (a.tombstones ∪ a.tombstones).keys = _
    rw [keys_union, union_self]
  rows o := by
    rw [reachability_merge, addresses, hm]
    exact (version_merge hw.dedup hw.dedup o).trans (max_self _)
  status o s := by
    rw [reachability_merge, addresses, hm]
    exact (Reachability.status_merge hw.dedup hw.dedup (nodup_dedup _) o s).trans (ite_self _)

/-- **A merge depends neither on the order of the gossips nor on repetition**, if different members are
rendered differently, no up number is the one that stands for a missing number and, for the repetition,
all observations are about members. -/
theorem merge_comm_self (ha : a.InNormalForm) (hb : b.InNormalForm)
    (hkeys : Set.InjOn UniqueAddress.orderingKey {x | x ∈ a.addresses ++ b.addresses})
    (hsame : ∀ l ∈ a.members, ∀ r ∈ b.members, l.uniqueAddress = r.uniqueAddress → l.roles = r.roles)
    (haged : ∀ m ∈ a.members ++ b.members, ∀ k ∈ m.upNumber, k < u64Max)
    (hrows : ∀ o, a.reachability.version o = b.reachability.version o →
      ∀ s, a.reachability.status o s = b.reachability.status o s)
    (htomb : a.TombstonesApart ∧ b.TombstonesApart) :
    Coincide (a.merge b) (b.merge a) ∧
      (a.reachability.Within a.addresses → Coincide (a.merge a) a) := by
  have hsa := ha.toSorted hkeys fun x hx => mem_append_left _ hx
  have hsb := hb.toSorted hkeys fun x hx => mem_append_right _ hx
  exact ⟨coincide_merge_comm (members_merge_comm hkeys hsa hsb hsame haged) hrows,
    coincide_merge_self (members_merge_self hkeys hsa) htomb.1⟩

/-- Two gossips that know one node as up and as leaving. -/
theorem merge_comm_self_leaving :
    Coincide ((DownOnOneSide.knows .up).merge (DownOnOneSide.knows .leaving))
      ((DownOnOneSide.knows .leaving).merge (DownOnOneSide.knows .up)) := by
  have hempty : ∀ s, (knows s).TombstonesApart := fun s n hn =>
    absurd hn (notMem_empty)
  have hall : ∀ x ∈ (knows .up).addresses ++ (knows .leaving).addresses, x = node := by
    decide +kernel
  exact (merge_comm_self (a := knows .up) (b := knows .leaving) (by decide +kernel)
    (by decide +kernel) (fun x hx y hy _ => (hall x hx).trans (hall y hy).symm) (by decide +kernel)
    (by decide +kernel) (fun _ _ _ => rfl) ⟨hempty _, hempty _⟩).1

/-- Each further condition is needed: an observation about a node that is no member is lost when a
gossip is merged with itself, and the order matters for a missing up number and the largest one and for
two nodes with one rendering. -/
theorem merge_order_matters :
    (let a := new.withReachability
        (Reachability.new.unreachable (.localTo "a" 1) (.localTo "b" 2));
      a.InNormalForm ∧ (a.merge a).reachability.status (.localTo "a" 1) (.localTo "b" 2) = .reachable ∧
        a.reachability.status (.localTo "a" 1) (.localTo "b" 2) = .unreachable) ∧
    (let m := (Member.new (.localTo "a" 1) []).withStatus .up;
      let a := fromMembers [m.withUpNumber u64Max];
      let b := fromMembers [m];
      a.InNormalForm ∧ b.InNormalForm ∧ (a.merge b).members ≠ (b.merge a).members) ∧
    (let a := fromMembers [Member.new ⟨⟨"kairo", "s", some "h:1", none⟩, 1⟩ []];
      let b := fromMembers [Member.new ⟨⟨"kairo", "s", some "h", some 1⟩, 1⟩ []];
      a.InNormalForm ∧ b.InNormalForm ∧ (a.merge b).members ≠ (b.merge a).members) := by
  decide +kernel

end Gossip

end Kairo.Cluster
