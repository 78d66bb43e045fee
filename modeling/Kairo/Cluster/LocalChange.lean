import Kairo.Cluster.LeaderSafety
import Kairo.Cluster.Membership

/-!
# What a node does to its own gossip

`Grown U n g g'` says that `g'` knows at least what `g` knows and differs in no observer's row but the
one of `n`.  Every local command that removes nobody grows the gossip and then stamps it with the
clock entry of the node.
-/

namespace Kairo.Cluster

open Kairo.Lib DowningPlan List Member UniqueAddress LeaderActions

namespace Gossip

/-- The gossips differ at most in their seen tables. -/
structure Alike (g g' : Gossip) : Prop where
  members : g'.members = g.members
  reachability : g'.reachability = g.reachability
  version : g'.version = g.version
  tombstones : g'.tombstones = g.tombstones

/-- A well-formed gossip that knows at least as much, with other observers' rows as they were. -/
structure Grown (U : List UniqueAddress) (n : UniqueAddress) (g g' : Gossip) : Prop where
  wellFormed : g'.WellFormed U
  version : g'.version = g.version
  tombstones : g'.tombstones = g.tombstones
  content : g.content ≤ g'.content
  others : ∀ o, o ≠ n → g'.reachability.version o = g.reachability.version o ∧
    ∀ s, g'.reachability.status o s = g.reachability.status o s
  own : g'.reachability.version n = g.reachability.version n →
    ∀ s, g'.reachability.status n s = g.reachability.status n s

variable {U : List UniqueAddress} {n : UniqueAddress} {g g' g'' : Gossip} {acc : Gossip × Bool}

lemma Grown.refl (hg : g.WellFormed U) : Grown U n g g :=
  ⟨hg, rfl, rfl, le_rfl, fun _ _ => ⟨rfl, fun _ => rfl⟩, fun _ _ => rfl⟩

lemma Grown.trans (h : Grown U n g g') (h' : Grown U n g' g'') : Grown U n g g'' := by
  refine ⟨h'.wellFormed, h'.version.trans h.version, h'.tombstones.trans h.tombstones,
    h.content.trans h'.content, fun o ho => ?_, fun hv s => ?_⟩
  · obtain ⟨hv, hs⟩ := h.others o ho
    obtain ⟨hv', hs'⟩ := h'.others o ho
    exact ⟨hv'.trans hv, fun s => (hs' s).trans (hs s)⟩
  · -- the version in between is squeezed
    have h1 : g.reachability.version n ≤ g'.reachability.version n := h.content.2 n
    have h2 : g'.reachability.version n ≤ g''.reachability.version n := h'.content.2 n
    exact (h'.own (by omega) s).trans (h.own (by omega) s)

lemma Grown.of_members (hg : g.WellFormed U) (hr : g'.reachability = g.reachability)
    (hv : g'.version = g.version) (ht : g'.tombstones = g.tombstones) (hs : KeySorted g'.members)
    (hm : ∀ m ∈ g'.members,
      m.uniqueAddress ∈ U ∧ m.status ≠ .removed ∧ ∀ k ∈ m.upNumber, k < u64Max)
    (hf : ∀ x, factOf (g.member x) ≤ factOf (g'.member x)) : Grown U n g g' := by
  have haddr : ∀ x ∈ g.addresses, x ∈ g'.addresses := by
    intro x hx
    rw [← member_isSome_iff] at hx ⊢
    exact isSome_of_factOf_le (hf x) hx
  refine ⟨⟨hs, fun m h => (hm m h).1, fun m h => (hm m h).2.1, fun m h => (hm m h).2.2, ?_⟩, hv, ht,
    ⟨hf, ?_⟩, fun o _ => ?_, fun _ s => ?_⟩
  · rw [hr]
    exact hg.observed.mono haddr
  · intro o
    show g.reachability.version o ≤ g'.reachability.version o
    rw [hr]
  · rw [hr]
    exact ⟨rfl, fun _ => rfl⟩
  · rw [hr]

/-! ## Changes of members -/

lemma keySorted_map {ms : List Member} {f : Member → Member}
    (hf : ∀ m, (f m).uniqueAddress = m.uniqueAddress) (h : KeySorted ms) : KeySorted (ms.map f) := by
  refine pairwise_map.mpr (h.imp fun {a b} hab => ?_)
  rw [hf, hf]
  exact hab

lemma factOf_le_withStatus_down {m : Member} (h : m.status ≠ .removed) :
    factOf (some m) ≤ factOf (some (m.withStatus .down)) := by
  by_cases hd : m.status = .down
  · rw [withStatus, ← hd]
  · refine factOf_le_of_priority ?_
    rw [withStatus_status]
    cases hs : m.status <;> first | decide | contradiction

lemma Grown.markDown (hg : g.WellFormed U) (node : UniqueAddress) :
    Grown U n g (g.markDown node) := by
  refine .of_members hg rfl rfl rfl (keySorted_map (fun m => by split_ifs <;> rfl) hg.sorted)
    (fun m hm => ?_) fun x => ?_
  · obtain ⟨y, hy, rfl⟩ := mem_map.mp hm
    have hy' := hg.present y hy
    split_ifs
    · exact ⟨hg.known y hy, by simp, hg.aged y hy⟩
    · exact ⟨hg.known y hy, hy', hg.aged y hy⟩
  · rw [member_markDown]
    cases hx : g.member x with
    | none => exact le_rfl
    | some m =>
      rw [Option.map_some]
      split_ifs
      · exact factOf_le_withStatus_down (hg.present m (mem_of_member hx).1)
      · exact le_rfl

lemma Grown.addMember (hU : Set.InjOn orderingKey {x | x ∈ U}) (hg : g.WellFormed U)
    {node : UniqueAddress} (hnew : node ∉ g.addresses) (hnode : node ∈ U) (roles : List String) :
    Grown U n g (g.addMember (Member.new node roles)) := by
  have hnd : ((g.members ++ [Member.new node roles]).map (·.uniqueAddress)).Nodup := by
    rw [map_append, nodup_append]
    refine ⟨hg.sorted.nodup, by simp, ?_⟩
    rintro a ha b hb rfl
    obtain rfl : a = node := by simpa using hb
    exact hnew ha
  have hmem : ∀ m ∈ g.members ++ [Member.new node roles],
      m.uniqueAddress ∈ U ∧ m.status ≠ .removed ∧ ∀ k ∈ m.upNumber, k < u64Max := by
    intro m hm
    rcases mem_append.mp hm with hm | hm
    · exact ⟨hg.known m hm, hg.present m hm, hg.aged m hm⟩
    · rw [mem_singleton.mp hm]
      exact ⟨hnode, by simp, by simp [Member.new]⟩
  have hperm := normalizeMembers_perm hnd
  refine .of_members hg rfl rfl rfl (keySorted_normalizeMembers hU hnd fun m hm => (hmem m hm).1)
    (fun m hm => hmem m (hperm.mem_iff.mp hm)) fun x => ?_
  have hx : (g.addMember (Member.new node roles)).member x =
      (g.members ++ [Member.new node roles]).find? (·.uniqueAddress = x) :=
    (find?_perm hperm.symm hnd x).symm
  rw [hx, find?_append]
  cases h : g.member x with
  | none => exact factOf_none_le _
  | some m =>
    rw [member] at h
    rw [h]
    exact le_rfl

lemma Grown.updateMembers (hU : Set.InjOn orderingKey {x | x ∈ U})
    (hg : g.WellFormed U) {changed : List Member}
    (hc : ∀ c ∈ changed, (c.status ≠ .removed ∧ ∀ k ∈ c.upNumber, k < u64Max) ∧
      ∀ m ∈ g.members, m.uniqueAddress = c.uniqueAddress → factOf (some m) ≤ factOf (some c)) :
    Grown U n g (g.updateMembers changed) := by
  have hmember := member_updateMembers hg.sorted.nodup changed
  unfold Gossip.updateMembers at hmember ⊢
  split_ifs at hmember ⊢ with hempty
  · exact .refl hg
  have hnd := nodup_map_replaced hg.sorted.nodup changed
  have hmem : ∀ m ∈ g.members.map (replaced changed),
      m.uniqueAddress ∈ U ∧ m.status ≠ .removed ∧ ∀ k ∈ m.upNumber, k < u64Max := by
    intro m hm
    obtain ⟨y, hy, rfl⟩ := mem_map.mp hm
    refine ⟨by rw [replaced_uniqueAddress]; exact hg.known y hy, ?_⟩
    rcases replaced_cases changed y with e | ⟨hy', -⟩
    · rw [e]
      exact ⟨hg.present y hy, hg.aged y hy⟩
    · exact (hc _ hy').1
  refine .of_members hg rfl rfl rfl (keySorted_normalizeMembers hU hnd fun m hm => (hmem m hm).1)
    (fun m hm => hmem m ((normalizeMembers_perm hnd).mem_iff.mp hm)) fun x => ?_
  -- a member stays or is replaced by a larger fact about it
  rw [hmember]
  cases h : g.member x with
  | none => exact le_rfl
  | some m =>
    rw [Option.map_some]
    rcases replaced_cases changed m with e | ⟨hm, he⟩
    · rw [e]
    · exact (hc _ hm).2 m (mem_of_member h).1 he.symm

/-! ## Observations -/

lemma Grown.observe (hg : g.WellFormed U) {subject : UniqueAddress} (hn : n ∈ g.addresses)
    (hs : subject ∈ g.addresses) (status : ReachabilityStatus) :
    Grown U n g (g.withReachability (g.reachability.change n subject status)) := by
  rcases g.reachability.change_cases n subject status with e | h
  · rw [e]
    exact .refl hg
  · have hother : ∀ o, o ≠ n →
        (g.reachability.change n subject status).version o = g.reachability.version o := by
      intro o ho
      rw [Reachability.version, h.versions, FinMap.lookup_insert, if_neg ho]
      rfl
    refine ⟨⟨hg.sorted, hg.known, hg.present, hg.aged, fun x hx => ?_, fun o ho => ?_⟩, rfl, rfl,
      ⟨fun _ => le_rfl, fun o => ?_⟩, fun o ho => ⟨hother o ho, h.status o ho⟩, fun hv => ?_⟩
    · rcases h.records x hx with hx | ⟨rfl, rfl⟩
      · exact hg.observed.1 x hx
      · exact ⟨hn, hs⟩
    · change o ∈ (g.reachability.change n subject status).versions.keys at ho
      rw [h.versions, Finmap.mem_keys, Finmap.mem_insert] at ho
      rcases ho with rfl | ho
      · exact hn
      · exact hg.observed.2 o (Finmap.mem_keys.mpr ho)
    · by_cases ho : o = n
      · subst ho
        exact (Nat.le_succ _).trans h.version.ge
      · exact (hother o ho).ge
    · have hv' : (g.reachability.change n subject status).version n = g.reachability.version n := hv
      have := h.version
      omega

/-! ## Downing and leader actions -/

variable (nodes : List UniqueAddress)

lemma foldl_applyNode_changed (h : acc.2 = true) : (nodes.foldl applyNode acc).2 = true := by
  refine foldlRecOn nodes applyNode (motive := fun x => x.2 = true) h fun acc h node _ => ?_
  unfold applyNode
  split_ifs
  · rfl
  · exact h

lemma Grown.foldl_applyNode (hg : acc.1.WellFormed U) :
    Grown U n acc.1 (nodes.foldl applyNode acc).1 ∧
      ((nodes.foldl applyNode acc).2 = false →
        (nodes.foldl applyNode acc).1 = acc.1) := by
  induction nodes generalizing acc with
  | nil => exact ⟨.refl hg, fun _ => rfl⟩
  | cons node nodes ih =>
    rw [foldl_cons]
    by_cases h : (acc.1.member node).any (·.status ≠ .down)
    · have hstep : applyNode acc node = (acc.1.markDown node, true) := if_pos h
      have hdown := Grown.markDown (n := n) hg node
      rw [hstep]
      have hgrown := (@ih (acc.1.markDown node, true) hdown.wellFormed).1
      refine ⟨hdown.trans hgrown, fun hflag => ?_⟩
      rw [foldl_applyNode_changed nodes rfl] at hflag
      cases hflag
    · have hstep : applyNode acc node = acc := if_neg h
      rw [hstep]
      exact ih hg

lemma Grown.leaderChange (hU : Set.InjOn orderingKey {x | x ∈ U})
    (hg : g.WellFormed U) (hup : nextUpNumber g + g.members.length < u64Max) :
    Grown U n g (g.updateMembers (changedMembers g)) := by
  refine .updateMembers hU hg fun c hc => ?_
  obtain ⟨m, hm, j, -, ha, hj⟩ := exists_advanced hc
  have hsame : ∀ m' ∈ g.members, m'.uniqueAddress = c.uniqueAddress → m' = m := fun m' hm' ha' =>
    inj_on_of_nodup_map hg.sorted.nodup hm' hm (ha'.trans ha.uniqueAddress_eq)
  cases ha with
  | promoted hs =>
    refine ⟨⟨by simp, fun k hk => ?_⟩, fun m' hm' ha' => ?_⟩
    · obtain rfl : j = k := by simpa [withStatus, withUpNumber] using hk
      omega
    · rw [hsame m' hm' ha']
      refine factOf_le_of_priority (?_ : _ < MemberStatus.up.priority)
      rcases hs with hs | hs <;> rw [hs] <;> decide
  | exiting hs =>
    refine ⟨⟨by simp, hg.aged m hm⟩, fun m' hm' ha' => ?_⟩
    rw [hsame m' hm' ha']
    refine factOf_le_of_priority (?_ : _ < MemberStatus.exiting.priority)
    rw [hs]
    decide

end Gossip

end Kairo.Cluster
