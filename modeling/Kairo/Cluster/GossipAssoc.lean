import Kairo.Cluster.GossipOrder

/-!
# Merging three gossips

Two groupings of a merge of three gossips.  Clocks and tombstones do not depend on the grouping
(`version_merge_assoc`, `tombstones_merge_assoc`), and neither does an entry that all three know, since
`Member.highestPriority` is associative.  An entry that exactly two of them know is first met by the
gossip that lacks it in one grouping and by the other entry in the other grouping; whether the two
groupings agree on it is `AssocAt`, and `merge_same_facts_iff` says that this is all there is to it.
-/

namespace Kairo.Cluster

open Kairo.Lib Member FinMap List Finmap Gossip

/-! ## The winning fact -/

/-- Keeping the first of two values only where it is strictly smaller is associative. -/
lemma ite_lt_assoc {α κ : Type*} [LinearOrder κ] (key : α → κ) (x y z : α) :
    (if key (if key x < key y then x else y) < key z then (if key x < key y then x else y) else z) =
      if key x < key (if key y < key z then y else z) then x else if key y < key z then y else z := by
  by_cases hxy : key x < key y <;> by_cases hyz : key y < key z
  · simp [hxy, hyz, hxy.trans hyz]
  · simp [hxy, hyz]
  · simp [hxy, hyz]
  · have hxz : ¬ key x < key z := not_lt.mpr ((not_lt.mp hyz).trans (not_lt.mp hxy))
    simp [hxy, hyz, hxz]

namespace Member

/-- The stronger fact has the smaller key. -/
def mergeKey (m : Member) : ℕᵒᵈ ×ₗ (ℕ ×ₗ String) := toLex (OrderDual.toDual m.status.priority, m.ageKey)

lemma highestPriority_eq_ite (left right : Member) :
    left.highestPriority right = if left.mergeKey < right.mergeKey then left else right := by
  unfold highestPriority
  have hlt : left.mergeKey < right.mergeKey ↔ right.status.priority < left.status.priority ∨
      left.status.priority = right.status.priority ∧ left.ageKey < right.ageKey :=
    Prod.Lex.toLex_lt_toLex
  by_cases hs : left.status = right.status
  · rw [if_pos hs]
    have hiff : left.isOlderThan right = true ↔ left.mergeKey < right.mergeKey := by
      rw [hlt, hs, isOlderThan, decide_eq_true_iff]
      simp
    simp only [hiff]
  · have hne : left.status.priority ≠ right.status.priority :=
      fun e => hs (MemberStatus.priority_injective e)
    have hiff : right.status.priority ≤ left.status.priority ↔ left.mergeKey < right.mergeKey := by
      rw [hlt]
      omega
    rw [if_neg hs]
    simp only [hiff]

lemma highestPriority_assoc (a b c : Member) :
    (a.highestPriority b).highestPriority c = a.highestPriority (b.highestPriority c) := by
  simp only [highestPriority_eq_ite]
  exact ite_lt_assoc mergeKey a b c

lemma isRemovedBySingleSidedMerge_iff (s : MemberStatus) :
    s.isRemovedBySingleSidedMerge = true ↔ 4 ≤ s.priority := by
  cases s <;> simp [MemberStatus.isRemovedBySingleSidedMerge, MemberStatus.priority]

lemma priority_highestPriority (a b : Member) :
    (a.highestPriority b).status.priority = max a.status.priority b.status.priority := by
  unfold highestPriority
  split_ifs with hs ho hp
  · rw [hs, max_self]
  · rw [hs, max_self]
  · exact (max_eq_left hp).symm
  · exact (max_eq_right (not_le.mp hp).le).symm

/-- A merged entry is about to go as soon as one side is. -/
lemma isRemovedBySingleSidedMerge_highestPriority (a b : Member) :
    (a.highestPriority b).status.isRemovedBySingleSidedMerge = false ↔
      a.status.isRemovedBySingleSidedMerge = false ∧ b.status.isRemovedBySingleSidedMerge = false := by
  simp only [← Bool.not_eq_true, isRemovedBySingleSidedMerge_iff, priority_highestPriority]
  omega

/-- What two merge orders have to agree on. -/
def facts (m : Member) : UniqueAddress × MemberStatus × Option ℕ :=
  (m.uniqueAddress, m.status, m.upNumber)

end Member

/-! ## One entry -/

variable {T T' Tab Tbc Tabc : FinMap UniqueAddress ℕ} {l m r : Member}

lemma KeptAlone.mono (h : ∀ x ∈ T, x ∈ T') (hk : KeptAlone T' m) : KeptAlone T m :=
  ⟨fun hm => hk.1 (h _ hm), hk.2⟩

/-- The tombstones concern every entry of a node alike. -/
lemma KeptAlone.of_address (he : l.uniqueAddress = m.uniqueAddress) (hl : KeptAlone T l)
    (hm : KeptAlone T' m) : KeptAlone T m :=
  ⟨he ▸ hl.1, hm.2⟩

lemma keptAlone_highestPriority (he : l.uniqueAddress = m.uniqueAddress) :
    KeptAlone T (l.highestPriority m) ↔ KeptAlone T l ∧ KeptAlone T m := by
  unfold KeptAlone
  rw [highestPriority_uniqueAddress he, isRemovedBySingleSidedMerge_highestPriority, he]
  tauto

/-- The condition on the entries of one node under which the grouping does not matter.  Only a node that
exactly two of the gossips know is concerned. -/
def EntryAssoc (Tab Tbc Tabc : FinMap UniqueAddress ℕ) :
    Option Member → Option Member → Option Member → Prop
  | some l, some m, none => KeptAlone Tbc m ↔ KeptAlone Tabc l
  | some l, none, some r => KeptAlone Tab l ↔ KeptAlone Tbc r
  | none, some m, some r => KeptAlone Tab m ↔ KeptAlone Tabc r
  | _, _, _ => True

instance (oa ob oc : Option Member) : Decidable (EntryAssoc Tab Tbc Tabc oa ob oc) := by
  unfold EntryAssoc
  split <;> infer_instance

/-- The condition decides whether two entries are one and, failing it, already their facts differ. -/
def Decides (c : Prop) (o o' : Option Member) : Prop :=
  (c → o = o') ∧ (o.map Member.facts = o'.map Member.facts → c)

lemma keptAlone_congr (h : m.facts = r.facts) : KeptAlone T m ↔ KeptAlone T r := by
  have ha : m.uniqueAddress = r.uniqueAddress := congrArg (fun f => f.1) h
  have hs : m.status = r.status := congrArg (fun f => f.2.1) h
  rw [KeptAlone, KeptAlone, ha, hs]

/-- The tombstones of all three gossips hold those of any two. -/
structure Covers (Tab Tbc Tabc : FinMap UniqueAddress ℕ) : Prop where
  first : ∀ x ∈ Tab, x ∈ Tabc
  last : ∀ x ∈ Tbc, x ∈ Tabc

namespace Covers

variable (hT : Covers Tab Tbc Tabc)

include hT

lemma decides_first_two (he : l.uniqueAddress = m.uniqueAddress) :
    Decides (KeptAlone Tbc m ↔ KeptAlone Tabc l)
      (mergedEntry Tabc (mergedEntry Tab (some l) (some m)) none)
      (mergedEntry Tabc (some l) (mergedEntry Tbc (some m) none)) := by
  simp only [Decides, mergedEntry, keptAlone_highestPriority he]
  by_cases hm : KeptAlone Tbc m <;> by_cases hl : KeptAlone Tabc l
  · simp [hm, hl, hl.of_address he hm]
  · simp [hm, hl]
  · have hm' : ¬ KeptAlone Tabc m := fun h => hm (h.mono hT.last)
    simp [hm, hl, hm']
  · simp [hm, hl]

lemma decides_last_two (he : m.uniqueAddress = r.uniqueAddress) :
    Decides (KeptAlone Tab m ↔ KeptAlone Tabc r)
      (mergedEntry Tabc (mergedEntry Tab none (some m)) (some r))
      (mergedEntry Tabc none (mergedEntry Tbc (some m) (some r))) := by
  simp only [Decides, mergedEntry, keptAlone_highestPriority he]
  by_cases hm : KeptAlone Tab m <;> by_cases hr : KeptAlone Tabc r
  · simp [hm, hr, hr.of_address he.symm hm]
  · simp [hm, hr]
  · have hm' : ¬ KeptAlone Tabc m := fun h => hm (h.mono hT.first)
    simp [hm, hr, hm']
  · simp [hm, hr]

lemma decides_outer_two (he : l.uniqueAddress = r.uniqueAddress) :
    Decides (KeptAlone Tab l ↔ KeptAlone Tbc r)
      (mergedEntry Tabc (mergedEntry Tab (some l) none) (some r))
      (mergedEntry Tabc (some l) (mergedEntry Tbc none (some r))) := by
  simp only [Decides, mergedEntry]
  by_cases hl : KeptAlone Tab l <;> by_cases hr : KeptAlone Tbc r
  · simp [hl, hr]
  · -- the entry of the first gossip meets that of the last one in one grouping only
    have hne : ¬ KeptAlone Tabc (l.highestPriority r) := fun h =>
      hr (((keptAlone_highestPriority he).mp h).2.mono hT.last)
    by_cases hl' : KeptAlone Tabc l
    · have hf : ¬ (l.highestPriority r).facts = l.facts := fun e => hne ((keptAlone_congr e).mpr hl')
      simp [hl, hr, hl', hf]
    · simp [hl, hr, hl']
  · have hne : ¬ KeptAlone Tabc (l.highestPriority r) := fun h =>
      hl (((keptAlone_highestPriority he).mp h).1.mono hT.first)
    by_cases hr' : KeptAlone Tabc r
    · have hf : ¬ r.facts = (l.highestPriority r).facts := fun e => hne ((keptAlone_congr e).mp hr')
      simp [hl, hr, hr', hf]
    · simp [hl, hr, hr']
  · have hl' : ¬ KeptAlone Tabc l := fun h => hl (h.mono hT.first)
    have hr' : ¬ KeptAlone Tabc r := fun h => hr (h.mono hT.last)
    simp [hl, hr, hl', hr']

lemma mergedEntry_single (m : Member) :
    mergedEntry Tabc (mergedEntry Tab (some m) none) none = mergedEntry Tabc (some m) none ∧
    mergedEntry Tabc (mergedEntry Tab none (some m)) none =
      mergedEntry Tabc none (mergedEntry Tbc (some m) none) ∧
    mergedEntry Tabc none (some m) = mergedEntry Tabc none (mergedEntry Tbc none (some m)) := by
  simp only [mergedEntry]
  by_cases hm : KeptAlone Tabc m
  · simp [hm, hm.mono hT.first, hm.mono hT.last]
  · by_cases h1 : KeptAlone Tab m <;> by_cases h2 : KeptAlone Tbc m <;> simp [hm, h1, h2]

/-- Over all entries of a node, the condition decides whether the groupings agree. -/
lemma decides_entryAssoc {x : UniqueAddress} {oa ob oc : Option Member}
    (ha : ∀ m ∈ oa, m.uniqueAddress = x) (hb : ∀ m ∈ ob, m.uniqueAddress = x)
    (hc : ∀ m ∈ oc, m.uniqueAddress = x) :
    Decides (EntryAssoc Tab Tbc Tabc oa ob oc)
      (mergedEntry Tabc (mergedEntry Tab oa ob) oc)
      (mergedEntry Tabc oa (mergedEntry Tbc ob oc)) := by
  cases oa with
  | none =>
    cases ob with
    | none =>
      cases oc with
      | none => exact ⟨fun _ => rfl, fun _ => trivial⟩
      | some r => exact ⟨fun _ => (hT.mergedEntry_single r).2.2, fun _ => trivial⟩
    | some m =>
      cases oc with
      | none => exact ⟨fun _ => (hT.mergedEntry_single m).2.1, fun _ => trivial⟩
      | some r => exact hT.decides_last_two ((hb m rfl).trans (hc r rfl).symm)
  | some l =>
    cases ob with
    | none =>
      cases oc with
      | none => exact ⟨fun _ => (hT.mergedEntry_single l).1, fun _ => trivial⟩
      | some r => exact hT.decides_outer_two ((ha l rfl).trans (hc r rfl).symm)
    | some m =>
      cases oc with
      | none => exact hT.decides_first_two ((ha l rfl).trans (hb m rfl).symm)
      | some r =>
        refine ⟨fun _ => ?_, fun _ => trivial⟩
        exact congrArg some (highestPriority_assoc l m r)

end Covers

/-! ## Gossips in normal form -/

/-- Sorted lists are known by what they hold of each node. -/
lemma KeySorted.ext {ms ms' : List Member} (h : KeySorted ms) (h' : KeySorted ms')
    (hf : ∀ x, ms.find? (·.uniqueAddress = x) = ms'.find? (·.uniqueAddress = x)) : ms = ms' := by
  have hmem : ∀ m, m ∈ ms ↔ m ∈ ms' := by
    intro m
    have hm := hf m.uniqueAddress
    have h1 := find?_eq_some_iff h.nodup (x := m.uniqueAddress) (m := m)
    have h2 := find?_eq_some_iff h'.nodup (x := m.uniqueAddress) (m := m)
    rw [hm, h2] at h1
    simpa using h1.symm
  have hperm : ms.Perm ms' :=
    (perm_ext_iff_of_nodup (List.Nodup.of_map _ h.nodup) (List.Nodup.of_map _ h'.nodup)).mpr hmem
  refine hperm.eq_of_pairwise ?_ h h'
  intro a b _ _ hab hba
  exact absurd (hab.trans hba) (lt_irrefl _)

variable (ms : List Member)

lemma map_uniqueAddress_upsertMember (m : Member) :
    (upsertMember ms m).map (·.uniqueAddress) =
      if m.uniqueAddress ∈ ms.map (·.uniqueAddress) then ms.map (·.uniqueAddress)
      else ms.map (·.uniqueAddress) ++ [m.uniqueAddress] := by
  have hany : ms.any (·.uniqueAddress = m.uniqueAddress) = true ↔
      m.uniqueAddress ∈ ms.map (·.uniqueAddress) := by
    simp
  unfold upsertMember
  by_cases hm : m.uniqueAddress ∈ ms.map (·.uniqueAddress)
  · rw [if_pos hm, if_pos (hany.mpr hm), map_map]
    refine map_congr_left fun y _ => ?_
    by_cases hy : y.uniqueAddress = m.uniqueAddress
    · simp [hy, highestPriority_uniqueAddress hy]
    · simp [hy]
  · rw [if_neg hm, if_neg fun h => hm (hany.mp h), map_append]
    rfl

lemma nodup_foldl_upsertMember {acc : List Member} (h : (acc.map (·.uniqueAddress)).Nodup) :
    ((ms.foldl upsertMember acc).map (·.uniqueAddress)).Nodup := by
  refine foldlRecOn ms upsertMember (motive := fun acc => (acc.map (·.uniqueAddress)).Nodup) h
    fun acc h m _ => ?_
  rw [map_uniqueAddress_upsertMember]
  split_ifs with hm
  · exact h
  · rw [← concat_eq_append]
    exact h.concat hm

lemma nodup_normalizeMembers : ((normalizeMembers ms).map (·.uniqueAddress)).Nodup := by
  have hperm := perm_insertionSort
    (fun a b : Member => a.uniqueAddress.orderingKey ≤ b.uniqueAddress.orderingKey)
    (ms.foldl upsertMember [])
  exact (hperm.map _).nodup_iff.mpr (nodup_foldl_upsertMember ms nodup_nil)

namespace Gossip

/-- The members are as `normalizeMembers` leaves them. -/
def InNormalForm (g : Gossip) : Prop := normalizeMembers g.members = g.members

instance (g : Gossip) : Decidable g.InNormalForm := inferInstanceAs (Decidable (_ = _))

lemma InNormalForm.keySorted {g : Gossip} {U : List UniqueAddress} (h : g.InNormalForm)
    (hU : Set.InjOn UniqueAddress.orderingKey {x | x ∈ U}) (hg : ∀ m ∈ g.members, m.uniqueAddress ∈ U) :
    KeySorted g.members := by
  have hnd : (g.members.map (·.uniqueAddress)).Nodup := by
    rw [← h]
    exact nodup_normalizeMembers g.members
  rw [← h]
  exact keySorted_normalizeMembers hU hnd hg

/-! ## Both groupings -/

/-- Two gossips agree on members, clock and tombstoned addresses. -/
def SameFacts (g h : Gossip) : Prop :=
  g.members.map Member.facts = h.members.map Member.facts ∧ g.version = h.version ∧
    g.tombstones.keys = h.tombstones.keys

instance (g h : Gossip) : Decidable (g.SameFacts h) := inferInstanceAs (Decidable (_ ∧ _ ∧ _))

/-- The condition on a node under which the grouping of a merge does not matter. -/
def AssocAt (a b c : Gossip) (x : UniqueAddress) : Prop :=
  EntryAssoc (b.tombstones ∪ a.tombstones) (c.tombstones ∪ b.tombstones)
    (c.tombstones ∪ (b.tombstones ∪ a.tombstones)) (a.member x) (b.member x) (c.member x)

instance (a b c : Gossip) (x : UniqueAddress) : Decidable (AssocAt a b c x) :=
  inferInstanceAs (Decidable (EntryAssoc _ _ _ _ _ _))

lemma tombstones_merge_assoc (a b c : Gossip) :
    ((a.merge b).merge c).tombstones = (a.merge (b.merge c)).tombstones :=
  union_assoc.symm

lemma covers (a b c : Gossip) : Covers (b.tombstones ∪ a.tombstones) (c.tombstones ∪ b.tombstones)
    (c.tombstones ∪ (b.tombstones ∪ a.tombstones)) where
  first x hx := mem_union.mpr (.inr hx)
  last x hx := by
    rw [← union_assoc]
    exact mem_union.mpr (.inl hx)

lemma version_merge_assoc (a b c : Gossip) :
    ((a.merge b).merge c).version = (a.merge (b.merge c)).version := by
  have hsub : ∀ {T T' : FinMap UniqueAddress ℕ}, (∀ x ∈ T, x ∈ T') → ∀ name : String,
      decide (name ∉ T'.keys.image vclockNode) = true → decide (name ∉ T.keys.image vclockNode) =
        true := by
    intro T T' h name hn
    refine decide_eq_true fun hm => of_decide_eq_true hn ?_
    refine Finset.image_subset_image ?_ hm
    exact fun x hx => mem_keys.mpr (h x (mem_keys.mp hx))
  have hT := covers a b c
  show pruneTombstoned (c.tombstones ∪ (b.tombstones ∪ a.tombstones)) _ =
    pruneTombstoned ((c.tombstones ∪ b.tombstones) ∪ a.tombstones) _
  rw [union_assoc, pruneTombstoned, pruneTombstoned]
  refine congrArg VectorClock.mk ?_
  calc retain _ (((a.merge b).version).versions.raise c.version.versions)
      = retain _ ((a.version.versions.raise b.version.versions).raise c.version.versions) :=
        (retain_raise_retain (hsub hT.first) _ _).1
    _ = retain _ (a.version.versions.raise (b.version.versions.raise c.version.versions)) := by
        rw [raise_assoc]
    _ = retain _ (a.version.versions.raise (b.merge c).version.versions) :=
        (retain_raise_retain (hsub hT.last) _ _).2.symm

variable {a b c : Gossip} {U : List UniqueAddress}

/-- Sorted members of a fixed set of addresses. -/
structure Sorted (U : List UniqueAddress) (g : Gossip) : Prop where
  sorted : KeySorted g.members
  known : ∀ m ∈ g.members, m.uniqueAddress ∈ U

section

variable (hU : Set.InjOn UniqueAddress.orderingKey {x | x ∈ U})

include hU

lemma Sorted.merge (ha : a.Sorted U) (hb : b.Sorted U) : (a.merge b).Sorted U where
  sorted := (mergeMembers_spec hU ha.sorted hb.sorted ha.known hb.known).1
  known m hm := (mem_of_mem_mergeMembers hm).elim (ha.known m) (hb.known m)

lemma Sorted.member_merge (ha : a.Sorted U) (hb : b.Sorted U) (x : UniqueAddress) :
    (a.merge b).member x =
      mergedEntry (b.tombstones ∪ a.tombstones) (a.member x) (b.member x) :=
  (mergeMembers_spec hU ha.sorted hb.sorted ha.known hb.known).2 x

lemma decides_assocAt (ha : a.Sorted U) (hb : b.Sorted U) (hc : c.Sorted U) (x : UniqueAddress) :
    Decides (AssocAt a b c x) (((a.merge b).merge c).member x) ((a.merge (b.merge c)).member x) := by
  have hleft : ((a.merge b).merge c).member x =
      mergedEntry (c.tombstones ∪ (b.tombstones ∪ a.tombstones))
        (mergedEntry (b.tombstones ∪ a.tombstones) (a.member x) (b.member x)) (c.member x) := by
    rw [(ha.merge hU hb).member_merge hU hc, ha.member_merge hU hb]
    rfl
  have hright : (a.merge (b.merge c)).member x =
      mergedEntry (c.tombstones ∪ (b.tombstones ∪ a.tombstones)) (a.member x)
        (mergedEntry (c.tombstones ∪ b.tombstones) (b.member x) (c.member x)) := by
    rw [ha.member_merge hU (hb.merge hU hc), hb.member_merge hU hc, ← union_assoc]
    rfl
  rw [hleft, hright]
  exact (covers a b c).decides_entryAssoc (fun m h => (mem_of_member h).2)
    (fun m h => (mem_of_member h).2) (fun m h => (mem_of_member h).2)

end

lemma map_facts_member {g h : Gossip} (hf : g.members.map facts = h.members.map facts)
    (x : UniqueAddress) : (g.member x).map facts = (h.member x).map facts := by
  have hfind : ∀ g : Gossip, (g.member x).map facts =
      (g.members.map facts).find? (fun f => f.1 = x) := by
    intro g
    rw [find?_map]
    rfl
  rw [hfind, hfind, hf]

/-- **The two groupings of a merge agree exactly where every node that two of the three gossips know is
either kept alone on both of the walks that decide about it, or on none.** -/
theorem merge_same_facts_iff (ha : a.InNormalForm) (hb : b.InNormalForm) (hc : c.InNormalForm)
    (hU : Set.InjOn UniqueAddress.orderingKey {x | x ∈ a.addresses ++ b.addresses ++ c.addresses}) :
    ((a.merge b).merge c).SameFacts (a.merge (b.merge c)) ↔ ∀ x, AssocAt a b c x := by
  have hka : ∀ m ∈ a.members, m.uniqueAddress ∈ a.addresses ++ b.addresses ++ c.addresses :=
    fun m hm => by simp [addresses, mem_map_of_mem hm]
  have hkb : ∀ m ∈ b.members, m.uniqueAddress ∈ a.addresses ++ b.addresses ++ c.addresses :=
    fun m hm => by simp [addresses, mem_map_of_mem hm]
  have hkc : ∀ m ∈ c.members, m.uniqueAddress ∈ a.addresses ++ b.addresses ++ c.addresses :=
    fun m hm => by simp [addresses, mem_map_of_mem hm]
  have hsa : a.Sorted _ := ⟨ha.keySorted hU hka, hka⟩
  have hsb : b.Sorted _ := ⟨hb.keySorted hU hkb, hkb⟩
  have hsc : c.Sorted _ := ⟨hc.keySorted hU hkc, hkc⟩
  constructor
  · intro h x
    exact (decides_assocAt hU hsa hsb hsc x).2 (map_facts_member h.1 x)
  · intro h
    have hmembers : ((a.merge b).merge c).members = (a.merge (b.merge c)).members :=
      ((hsa.merge hU hsb).merge hU hsc).sorted.ext (hsa.merge hU (hsb.merge hU hsc)).sorted
        fun x => (decides_assocAt hU hsa hsb hsc x).1 (h x)
    exact ⟨congrArg _ hmembers, version_merge_assoc a b c,
      congrArg Finmap.keys (tombstones_merge_assoc a b c)⟩

end Gossip

/-! ## A node that is down on one side -/

namespace DownOnOneSide

def node : UniqueAddress := .localTo "b" 2

def knows (s : MemberStatus) : Gossip := .fromMembers [(Member.new node []).withStatus s]

/-- A gossip without the node takes the downed entry away before it meets the other one: one grouping
forgets the node, the other one keeps it up. -/
theorem grouping_matters :
    (knows .up).InNormalForm ∧ (knows .down).InNormalForm ∧ Gossip.new.InNormalForm ∧
      (((knows .up).merge (knows .down)).merge .new).member node = none ∧
      (((knows .up).merge ((knows .down).merge .new)).member node).map (·.status) = some .up ∧
      ¬ (((knows .up).merge (knows .down)).merge .new).SameFacts
        ((knows .up).merge ((knows .down).merge .new)) := by
  decide +kernel

/-- The other gossips know the node as up and as leaving. -/
theorem grouping_agrees :
    (((knows .up).merge .new).merge (knows .leaving)).SameFacts
      ((knows .up).merge (Gossip.new.merge (knows .leaving))) := by
  have hall : ∀ x ∈ (knows .up).addresses ++ new.addresses ++ (knows .leaving).addresses, x = node := by
    decide +kernel
  refine (merge_same_facts_iff (by decide +kernel) (by decide +kernel) (by decide +kernel)
    fun x hx y hy _ => (hall x hx).trans (hall y hy).symm).mpr fun x => ?_
  by_cases hx : node = x
  · subst hx
    decide +kernel
  · have hnone : ∀ s, (knows s).member x = none := by
      intro s
      simp [knows, fromMembers, member, normalizeMembers, upsertMember, sortMembers, hx]
    rw [Gossip.AssocAt, hnone, hnone]
    trivial

end DownOnOneSide

end Kairo.Cluster
