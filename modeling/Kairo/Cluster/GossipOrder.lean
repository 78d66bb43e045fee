import Kairo.Cluster.Gossip

/-!
# The order of gossips

What a gossip knows of a node is ordered by the merge priority of the node's status and then by age
(`factOf`); its knowledge of an observer's reachability row is ordered by the row's version.  Where no
member is dropped, `Gossip.merge` is the join of this order (`content_merge`).

The walk of `mergeMembers` needs both lists sorted by rendered address, and different addresses to
render differently.  The latter is assumed on a list `U` that holds every address in use.
-/

namespace Kairo.Cluster

open Kairo.Lib OrderDual List Member List.Pairwise UniqueAddress Prod.Lex

/-! ## Facts about one node -/

/-- Nothing, or the priority of the status and then the age. -/
def factOf : Option Member → ℕ ×ₗ ℕᵒᵈ
  | none => toLex (0, toDual 0)
  | some m => toLex (m.status.priority + 1, toDual (m.upNumber.getD u64Max))

lemma factOf_le_of_priority {a b : Member} (h : a.status.priority < b.status.priority) :
    factOf (some a) ≤ factOf (some b) :=
  toLex_le_toLex.mpr (.inl (Nat.succ_lt_succ h))

lemma factOf_none_le (m : Option Member) : factOf none ≤ factOf m := by
  cases m with
  | none => exact le_rfl
  | some m => exact toLex_le_toLex.mpr (.inl (Nat.succ_pos _))

lemma isSome_of_factOf_le {a b : Option Member} (h : factOf a ≤ factOf b) (ha : a.isSome) :
    b.isSome := by
  cases a with
  | none => cases ha
  | some a =>
    cases b with
    | some b => rfl
    | none =>
      rcases toLex_le_toLex.mp h with h | ⟨h, -⟩
      · exact absurd h (Nat.not_lt_zero _)
      · exact absurd h (Nat.succ_ne_zero _)

lemma factOf_highestPriority {a b : Member} (h : a.uniqueAddress = b.uniqueAddress) :
    factOf (some (a.highestPriority b)) = factOf (some a) ⊔ factOf (some b) := by
  unfold highestPriority
  by_cases hs : a.status = b.status
  · rw [if_pos hs]
    by_cases ho : a.isOlderThan b
    · rw [if_pos ho, eq_comm, sup_eq_left]
      have hlt : a.ageKey < b.ageKey := of_decide_eq_true ho
      rcases toLex_lt_toLex.mp hlt with hup | ⟨-, hkey⟩
      · exact toLex_le_toLex.mpr (.inr ⟨by rw [hs], toDual_le_toDual.mpr hup.le⟩)
      · rw [h] at hkey
        exact absurd hkey (lt_irrefl _)
    · rw [if_neg ho, eq_comm, sup_eq_right]
      have hle : b.ageKey ≤ a.ageKey := not_lt.mp fun hlt => ho (decide_eq_true hlt)
      refine toLex_le_toLex.mpr (.inr ⟨by rw [hs], toDual_le_toDual.mpr ?_⟩)
      rcases toLex_le_toLex.mp hle with hup | ⟨hup, -⟩ <;> exact hup.le
  · rw [if_neg hs]
    by_cases hp : b.status.priority ≤ a.status.priority
    · rw [if_pos hp, eq_comm, sup_eq_left]
      refine factOf_le_of_priority (lt_of_le_of_ne hp fun e => hs ?_)
      exact (MemberStatus.priority_injective e).symm
    · rw [if_neg hp, eq_comm, sup_eq_right]
      exact factOf_le_of_priority (not_le.mp hp)

/-- Facts tell status and up number apart, as long as no up number is the largest one. -/
lemma eq_of_factOf_eq {a b : Option Member} (ha : ∀ m ∈ a, ∀ k ∈ m.upNumber, k < u64Max)
    (hb : ∀ m ∈ b, ∀ k ∈ m.upNumber, k < u64Max) (h : factOf a = factOf b) :
    (a.map fun m => (m.status, m.upNumber)) = b.map fun m => (m.status, m.upNumber) := by
  cases a with
  | none =>
    cases b with
    | none => rfl
    | some b => cases isSome_of_factOf_le h.ge rfl
  | some a =>
    cases b with
    | none => cases isSome_of_factOf_le h.le rfl
    | some b =>
      have hpair := toLex_inj.mp h
      rw [Prod.mk.injEq, Nat.succ_inj, toDual_inj] at hpair
      have hs : a.status = b.status := MemberStatus.priority_injective hpair.1
      have hup : a.upNumber = b.upNumber := by
        cases hau : a.upNumber with
        | none =>
          cases hbu : b.upNumber with
          | none => rfl
          | some k =>
            have := hb b rfl k hbu
            rw [hau, hbu, Option.getD_none, Option.getD_some] at hpair
            omega
        | some j =>
          cases hbu : b.upNumber with
          | none =>
            have := ha a rfl j hau
            rw [hau, hbu, Option.getD_none, Option.getD_some] at hpair
            omega
          | some k =>
            rw [hau, hbu, Option.getD_some, Option.getD_some] at hpair
            rw [hpair.2]
      simp [hs, hup]

/-! ## Sorted member lists -/

/-- The members are in the strict order of their rendered addresses. -/
def KeySorted (ms : List Member) : Prop :=
  ms.Pairwise fun a b => a.uniqueAddress.orderingKey < b.uniqueAddress.orderingKey

instance (ms : List Member) : Decidable (KeySorted ms) := inferInstanceAs
    (Decidable (List.Pairwise _ _))

variable {ms : List Member} {m : Member}

lemma KeySorted.nodup (h : KeySorted ms) : (ms.map (·.uniqueAddress)).Nodup := by
  refine pairwise_map.mpr (imp ?_ h)
  intro a b hlt he
  rw [he] at hlt
  exact lt_irrefl _ hlt

open Gossip (find?_eq_some_iff)

lemma find?_perm {ms ms' : List Member} (hp : ms.Perm ms') (h : (ms.map (·.uniqueAddress)).Nodup)
    (x : UniqueAddress) :
    ms.find? (·.uniqueAddress = x) = ms'.find? (·.uniqueAddress = x) := by
  apply Option.ext
  intro m
  rw [find?_eq_some_iff h, find?_eq_some_iff ((hp.map _).nodup_iff.mp h), hp.mem_iff]

lemma foldl_upsertMember {ms acc : List Member}
    (h : ((acc ++ ms).map (·.uniqueAddress)).Nodup) : ms.foldl upsertMember acc = acc ++ ms := by
  induction ms generalizing acc with
  | nil => simp
  | cons m ms ih =>
    have hm : acc.any (·.uniqueAddress = m.uniqueAddress) = false := by
      rw [map_append, nodup_append] at h
      rw [any_eq_false]
      intro a ha he
      exact h.2.2 _ (mem_map_of_mem ha) m.uniqueAddress (by simp) (of_decide_eq_true he)
    rw [foldl_cons, upsertMember, hm, if_neg Bool.false_ne_true, ih (by simpa using h)]
    simp

lemma normalizeMembers_perm (h : (ms.map (·.uniqueAddress)).Nodup) :
    (normalizeMembers ms).Perm ms := by
  rw [normalizeMembers, foldl_upsertMember (by simpa using h), nil_append]
  exact perm_insertionSort _ _

lemma mem_of_mem_normalizeMembers (h : m ∈ normalizeMembers ms) : m ∈ ms := by
  have fold : ∀ (ms acc : List Member), m ∈ ms.foldl upsertMember acc → m ∈ acc ∨ m ∈ ms := by
    intro ms
    induction ms with
    | nil => intro acc h; exact .inl h
    | cons a ms ih =>
      intro acc h
      rcases ih (upsertMember acc a) h with h | h
      · unfold upsertMember at h
        split_ifs at h
        · obtain ⟨y, hy, e⟩ := mem_map.mp h
          split_ifs at e
          · -- an entry of the same address is one of the two
            rcases highestPriority_eq_or y a with e' | e' <;> rw [e'] at e <;> subst e
            · exact .inl hy
            · exact .inr (by simp)
          · exact .inl (e ▸ hy)
        · rcases mem_append.mp h with h | h
          · exact .inl h
          · exact .inr (by rw [mem_singleton.mp h]; simp)
      · exact .inr (mem_cons_of_mem _ h)
  rcases fold ms [] ((perm_insertionSort _ _).mem_iff.mp h) with h | h
  · cases h
  · exact h

/-- A member after a replacement of facts. -/
def replaced (changed : List Member) (m : Member) : Member :=
  (changed.reverse.find? (·.uniqueAddress = m.uniqueAddress)).getD m

variable (changed : List Member)

lemma replaced_cases (m : Member) :
    replaced changed m = m ∨
    replaced changed m ∈ changed ∧ (replaced changed m).uniqueAddress = m.uniqueAddress := by
  unfold replaced
  cases hm : changed.reverse.find? (·.uniqueAddress = m.uniqueAddress) with
  | none => exact .inl rfl
  | some c =>
    exact .inr ⟨mem_reverse.mp (mem_of_find?_eq_some hm), by simpa using find?_some hm⟩

lemma replaced_uniqueAddress (m : Member) : (replaced changed m).uniqueAddress = m.uniqueAddress :=
  (replaced_cases changed m).elim (fun e => by rw [e]) And.right

lemma nodup_map_replaced (h : (ms.map (·.uniqueAddress)).Nodup)
    (changed : List Member) : ((ms.map (replaced changed)).map (·.uniqueAddress)).Nodup := by
  rw [map_map]
  exact (map_congr_left fun m _ => replaced_uniqueAddress changed m) ▸ h

lemma Gossip.member_updateMembers {g : Gossip} (hn : g.Normalized) (changed : List Member)
    (x : UniqueAddress) :
    (g.updateMembers changed).member x = (g.member x).map (replaced changed) := by
  unfold Gossip.updateMembers
  split_ifs with hempty
  · rw [isEmpty_iff.mp hempty]
    exact Option.map_id'.symm
  have hnd := nodup_map_replaced hn changed
  show (normalizeMembers _).find? _ = (g.members.find? _).map _
  rw [← Gossip.find?_map_of_address _ _ (replaced_uniqueAddress changed),
    find?_perm (normalizeMembers_perm hnd).symm hnd x]
  rfl

lemma keySorted_normalizeMembers {U : List UniqueAddress}
    (hU : Set.InjOn orderingKey {x | x ∈ U}) (h : (ms.map (·.uniqueAddress)).Nodup)
    (hms : ∀ m ∈ ms, m.uniqueAddress ∈ U) :
    KeySorted (normalizeMembers ms) := by
  have hperm := normalizeMembers_perm h
  have hnd := (hperm.map (·.uniqueAddress)).nodup_iff.mpr h
  have hle : (normalizeMembers ms).Pairwise fun a b =>
      a.uniqueAddress.orderingKey ≤ b.uniqueAddress.orderingKey := pairwise_insertionSort _ _
  refine (hle.and (pairwise_map.mp hnd)).imp_of_mem ?_
  rintro a b ha hb ⟨hab, hne⟩
  refine lt_of_le_of_ne hab fun he => hne ?_
  exact hU (hms a (hperm.mem_iff.mp ha)) (hms b (hperm.mem_iff.mp hb)) he

/-! ## The merge walk -/

variable (tombstones : FinMap UniqueAddress ℕ)

/-- The merge keeps a member that only one side knows. -/
def KeptAlone (m : Member) : Prop :=
  m.uniqueAddress ∉ tombstones ∧ m.status.isRemovedBySingleSidedMerge = false

instance (tombstones : FinMap UniqueAddress ℕ) (m : Member) : Decidable (KeptAlone tombstones m) :=
  inferInstanceAs (Decidable (_ ∧ _))

lemma pushSingleSidedMember_eq (m : Member) :
    pushSingleSidedMember tombstones m = if KeptAlone tombstones m then [m] else [] := by
  by_cases h : KeptAlone tombstones m
  · rw [if_pos h, pushSingleSidedMember, if_pos (by simpa [KeptAlone] using h)]
  · rw [if_neg h, pushSingleSidedMember, if_neg (by simpa [KeptAlone] using h)]

/-- What the merge keeps of a node, given the entries of both sides. -/
def mergedEntry : Option Member → Option Member → Option Member
  | some l, some r => some (l.highestPriority r)
  | some m, none | none, some m => if KeptAlone tombstones m then some m else none
  | none, none => none

variable {U : List UniqueAddress} {T : FinMap UniqueAddress ℕ} {left right : List Member}
  {x : UniqueAddress}

lemma mem_pushSingleSidedMember {m x : Member} :
    x ∈ pushSingleSidedMember T m ↔ x = m ∧ KeptAlone T m := by
  rw [pushSingleSidedMember_eq]
  split_ifs with hk <;> simp [hk]

/-- Where a merged entry comes from: one side alone, or both. -/
def MergedFrom (T : FinMap UniqueAddress ℕ) (left right : List Member) (m : Member) : Prop :=
  KeptAlone T m ∧ (m ∈ left ∨ m ∈ right) ∨
    ∃ l ∈ left, ∃ r ∈ right, l.uniqueAddress = r.uniqueAddress ∧ m = l.highestPriority r

lemma MergedFrom.mono {left' right' : List Member} (h : MergedFrom T left right m)
    (hl : left ⊆ left') (hr : right ⊆ right') : MergedFrom T left' right' m := by
  rcases h with ⟨hk, h⟩ | ⟨l, hl', r, hr', h⟩
  · exact .inl ⟨hk, h.imp (@hl _) (@hr _)⟩
  · exact .inr ⟨l, hl hl', r, hr hr', h⟩

lemma mergedFrom_of_mem (h : m ∈ mergeMembers T left right) : MergedFrom T left right m := by
  induction left, right using mergeMembers.induct with
  | case1 right =>
    rw [mergeMembers, mem_flatMap] at h
    obtain ⟨x, hx, hm⟩ := h
    obtain ⟨rfl, hk⟩ := mem_pushSingleSidedMember.mp hm
    exact .inl ⟨hk, .inr hx⟩
  | case2 left hne =>
    rw [mergeMembers, mem_flatMap] at h
    · obtain ⟨x, hx, hm⟩ := h
      obtain ⟨rfl, hk⟩ := mem_pushSingleSidedMember.mp hm
      exact .inl ⟨hk, .inl hx⟩
    · exact hne
  | case3 l left r right he ih =>
    rw [mergeMembers, if_pos he, mem_cons] at h
    rcases h with h | h
    · exact .inr ⟨l, mem_cons_self, r, mem_cons_self, he, h⟩
    · exact (ih h).mono (subset_cons_self _ _) (subset_cons_self _ _)
  | case4 l left r right hne hle ih =>
    rw [mergeMembers, if_neg hne, if_pos hle, mem_append, mem_pushSingleSidedMember] at h
    rcases h with ⟨rfl, hk⟩ | h
    · exact .inl ⟨hk, .inl mem_cons_self⟩
    · exact (ih h).mono (subset_cons_self _ _) (Subset.refl _)
  | case5 l left r right hne hle ih =>
    rw [mergeMembers, if_neg hne, if_neg hle, mem_append, mem_pushSingleSidedMember] at h
    rcases h with ⟨rfl, hk⟩ | h
    · exact .inl ⟨hk, .inr mem_cons_self⟩
    · exact (ih h).mono (Subset.refl _) (subset_cons_self _ _)

lemma mem_of_mem_mergeMembers (h : m ∈ mergeMembers T left right) : m ∈ left ∨ m ∈ right := by
  rcases mergedFrom_of_mem h with ⟨-, h⟩ | ⟨l, hl, r, hr, -, rfl⟩
  · exact h
  · rcases highestPriority_eq_or l r with e | e <;> rw [e]
    exacts [.inl hl, .inr hr]

lemma find?_pushSingleSidedMember_append (m : Member) (ms : List Member) (x : UniqueAddress) :
    (pushSingleSidedMember T m ++ ms).find? (·.uniqueAddress = x) =
      if m.uniqueAddress = x ∧ KeptAlone T m then some m
      else ms.find? (·.uniqueAddress = x) := by
  rw [pushSingleSidedMember_eq]
  by_cases hk : KeptAlone T m <;> by_cases hx : m.uniqueAddress = x <;> simp [hk, hx]

lemma find?_eq_none_of_lt (h : ∀ m ∈ ms, x.orderingKey < m.uniqueAddress.orderingKey) :
    ms.find? (·.uniqueAddress = x) = none := by
  rw [find?_eq_none]
  intro m hm he
  have hlt := h m hm
  rw [of_decide_eq_true he] at hlt
  exact lt_irrefl _ hlt

lemma find?_flatMap_pushSingleSidedMember (h : KeySorted ms) (x : UniqueAddress) :
    (ms.flatMap (pushSingleSidedMember T)).find? (·.uniqueAddress = x) =
      (ms.find? (·.uniqueAddress = x)).bind fun m => if KeptAlone T m then some m else none := by
  induction ms with
  | nil => rfl
  | cons m ms ih =>
    have htail := ih (of_cons h)
    rw [flatMap_cons, find?_pushSingleSidedMember_append, htail, find?_cons]
    by_cases hx : m.uniqueAddress = x
    · have hnone : ms.find? (·.uniqueAddress = x) = none :=
        find?_eq_none_of_lt fun b hb => hx ▸ rel_of_pairwise_cons h hb
      by_cases hk : KeptAlone T m <;> simp [hx, hk, hnone]
    · simp [hx]

lemma KeySorted.lt_of_mem_cons {r : Member} {right : List Member} (h : KeySorted (r :: right))
    (hx : x.orderingKey < r.uniqueAddress.orderingKey) :
    ∀ m ∈ r :: right, x.orderingKey < m.uniqueAddress.orderingKey := by
  intro m hm
  rcases mem_cons.mp hm with rfl | hm
  · exact hx
  · exact hx.trans (rel_of_pairwise_cons h hm)

lemma keySorted_flatMap_pushSingleSidedMember (h : KeySorted ms) :
    KeySorted (ms.flatMap (pushSingleSidedMember T)) := by
  have hf : ms.flatMap (pushSingleSidedMember T) = ms.filter fun m => decide (KeptAlone T m) := by
    induction ms with
    | nil => rfl
    | cons m ms ih =>
      rw [flatMap_cons, pushSingleSidedMember_eq, filter_cons, ih (of_cons h)]
      by_cases hk : KeptAlone T m <;> simp [hk]
  rw [hf]
  exact filter _ h

lemma keySorted_pushSingleSidedMember_append (h : KeySorted (mergeMembers T left right))
    (hl : ∀ a ∈ left, m.uniqueAddress.orderingKey < a.uniqueAddress.orderingKey)
    (hr : ∀ a ∈ right, m.uniqueAddress.orderingKey < a.uniqueAddress.orderingKey) :
    KeySorted (m :: mergeMembers T left right) ∧
      KeySorted (pushSingleSidedMember T m ++ mergeMembers T left right) := by
  have hcons : KeySorted (m :: mergeMembers T left right) := by
    refine pairwise_cons.mpr ⟨fun b hb => ?_, h⟩
    rcases mem_of_mem_mergeMembers hb with hb | hb
    · exact hl b hb
    · exact hr b hb
  refine ⟨hcons, ?_⟩
  rw [pushSingleSidedMember_eq]
  split_ifs
  · exact hcons
  · exact h

section

variable (hU : Set.InjOn orderingKey {x | x ∈ U}) (hl : KeySorted left) (hr : KeySorted right)
  (hlU : ∀ m ∈ left, m.uniqueAddress ∈ U) (hrU : ∀ m ∈ right, m.uniqueAddress ∈ U)

include hU hl hr hlU hrU

lemma mergeMembers_spec : KeySorted (mergeMembers T left right) ∧ ∀ x,
    (mergeMembers T left right).find? (·.uniqueAddress = x) =
      mergedEntry T (left.find? (·.uniqueAddress = x)) (right.find? (·.uniqueAddress = x)) := by
  induction left, right using mergeMembers.induct with
  | case1 right =>
    rw [mergeMembers]
    refine ⟨keySorted_flatMap_pushSingleSidedMember hr, fun x => ?_⟩
    rw [find?_flatMap_pushSingleSidedMember hr]
    cases right.find? (·.uniqueAddress = x) <;> rfl
  | case2 left hne =>
    rw [mergeMembers]
    · refine ⟨keySorted_flatMap_pushSingleSidedMember hl, fun x => ?_⟩
      rw [find?_flatMap_pushSingleSidedMember hl]
      cases left.find? (·.uniqueAddress = x) <;> rfl
    · exact hne
  | case3 l left r right he ih =>
    obtain ⟨hs, hf⟩ := ih (of_cons hl) (of_cons hr)
      (fun m hm => hlU m (mem_cons_of_mem _ hm)) (fun m hm => hrU m (mem_cons_of_mem _ hm))
    have ha := highestPriority_uniqueAddress he
    rw [mergeMembers, if_pos he]
    refine ⟨(keySorted_pushSingleSidedMember_append hs (fun a ha' => ?_) fun a ha' => ?_).1,
      fun x => ?_⟩
    · rw [ha]
      exact rel_of_pairwise_cons hl ha'
    · rw [ha, he]
      exact rel_of_pairwise_cons hr ha'
    · rw [find?_cons, find?_cons, find?_cons, hf, ha, ← he]
      by_cases hx : l.uniqueAddress = x <;> simp [hx, mergedEntry]
  | case4 l left r right hne hle ih =>
    have hlt : l.uniqueAddress.orderingKey < r.uniqueAddress.orderingKey :=
      lt_of_le_of_ne hle fun e => hne (hU (hlU l (by simp)) (hrU r (by simp)) e)
    obtain ⟨hs, hf⟩ := ih (of_cons hl) hr (fun m hm => hlU m (mem_cons_of_mem _ hm)) hrU
    have hafter := fun b (hb : b ∈ left) => rel_of_pairwise_cons hl hb
    rw [mergeMembers, if_neg hne, if_pos hle]
    refine ⟨(keySorted_pushSingleSidedMember_append hs hafter (hr.lt_of_mem_cons hlt)).2, fun x => ?_⟩
    rw [find?_pushSingleSidedMember_append, hf]
    by_cases hx : l.uniqueAddress = x
    · -- the node of the left entry is unknown to the rest of both sides
      subst hx
      rw [find?_eq_none_of_lt (hr.lt_of_mem_cons hlt), find?_eq_none_of_lt hafter]
      by_cases hk : KeptAlone T l <;> simp [hk, mergedEntry]
    · simp [hx]
  | case5 l left r right hne hle ih =>
    have hlt : r.uniqueAddress.orderingKey < l.uniqueAddress.orderingKey := not_le.mp hle
    obtain ⟨hs, hf⟩ := ih hl (of_cons hr) hlU (fun m hm => hrU m (mem_cons_of_mem _ hm))
    have hafter := fun b (hb : b ∈ right) => rel_of_pairwise_cons hr hb
    rw [mergeMembers, if_neg hne, if_neg hle]
    refine ⟨(keySorted_pushSingleSidedMember_append hs (hl.lt_of_mem_cons hlt) hafter).2, fun x => ?_⟩
    rw [find?_pushSingleSidedMember_append, hf]
    by_cases hx : r.uniqueAddress = x
    · subst hx
      rw [find?_eq_none_of_lt (hl.lt_of_mem_cons hlt), find?_eq_none_of_lt hafter]
      by_cases hk : KeptAlone T r <;> simp [hk, mergedEntry]
    · simp [hx]

end

/-! ## Well-formed gossips -/

namespace Gossip

/-- The invariant of the gossips of a cluster: one sorted entry per address, no entry whose status is
removed or whose up number is the largest one, and observations among members only. -/
structure WellFormed (U : List UniqueAddress) (g : Gossip) : Prop where
  sorted : KeySorted g.members
  known : ∀ m ∈ g.members, m.uniqueAddress ∈ U
  present : ∀ m ∈ g.members, m.status ≠ .removed
  aged : ∀ m ∈ g.members, ∀ k ∈ m.upNumber, k < u64Max
  observed : g.reachability.Within g.addresses

/-- What a gossip knows, as an element of a join order. -/
def content (g : Gossip) : (UniqueAddress → ℕ ×ₗ ℕᵒᵈ) × (UniqueAddress → ℕ) :=
  (fun x => factOf (g.member x), g.reachability.version)

def MergeKeeps (g other : Gossip) : Prop :=
  ∀ m ∈ g.members ++ other.members, g.hasMember m.uniqueAddress ∧ other.hasMember m.uniqueAddress ∨
    KeptAlone (other.tombstones ∪ g.tombstones) m

instance (g other : Gossip) : Decidable (g.MergeKeeps other) :=
  inferInstanceAs (Decidable (∀ m ∈ _, _ ∨ _))

variable {g other : Gossip}

lemma MergeKeeps.of_member (h : g.MergeKeeps other)
    (hm : g.member x = some m ∧ other.member x = none ∨ g.member x = none ∧ other.member x = some m) :
    KeptAlone (other.tombstones ∪ g.tombstones) m := by
  rcases hm with ⟨hg, ho⟩ | ⟨hg, ho⟩
  · obtain ⟨hmem, rfl⟩ := mem_of_member hg
    refine (h m (mem_append_left _ hmem)).resolve_left fun h' => ?_
    rw [hasMember, hasMember, ho] at h'
    cases h'.2
  · obtain ⟨hmem, rfl⟩ := mem_of_member ho
    refine (h m (mem_append_right _ hmem)).resolve_left fun h' => ?_
    rw [hasMember, hasMember, hg] at h'
    cases h'.1

lemma reachability_merge (g other : Gossip) :
    (g.merge other).reachability =
      g.reachability.merge (g.merge other).addresses.dedup other.reachability := by
  show (if _ then _ else _) = _
  split_ifs with h
  · rw [Reachability.merge, if_pos h]
  · rfl

section Merge

variable (hU : Set.InjOn UniqueAddress.orderingKey {x | x ∈ U}) (hg : g.WellFormed U)
  (ho : other.WellFormed U) (hk : g.MergeKeeps other)

include hU hg ho hk

lemma member_merge_of_keeps (x : UniqueAddress) :
    (g.merge other).member x =
      match g.member x, other.member x with
      | some l, some r => some (l.highestPriority r)
      | some m, none | none, some m => some m
      | none, none => none := by
  have hx : (g.merge other).member x =
      mergedEntry (other.tombstones ∪ g.tombstones) (g.member x) (other.member x) :=
    (mergeMembers_spec hU hg.sorted ho.sorted hg.known ho.known).2 x
  rw [hx]
  cases hgx : g.member x with
  | none =>
    cases hox : other.member x with
    | none => rfl
    | some r => exact if_pos (hk.of_member (.inr ⟨hgx, hox⟩))
  | some l =>
    cases hox : other.member x with
    | none => exact if_pos (hk.of_member (.inl ⟨hgx, hox⟩))
    | some r => rfl

lemma factOf_member_merge (x : UniqueAddress) :
    factOf ((g.merge other).member x) = factOf (g.member x) ⊔ factOf (other.member x) := by
  rw [member_merge_of_keeps hU hg ho hk]
  cases hgx : g.member x with
  | none =>
    cases hox : other.member x with
    | none => exact (sup_idem _).symm
    | some r => exact (sup_eq_right.mpr (factOf_none_le _)).symm
  | some l =>
    cases hox : other.member x with
    | none => exact (sup_eq_left.mpr (factOf_none_le _)).symm
    | some r =>
      exact factOf_highestPriority ((mem_of_member hgx).2.trans (mem_of_member hox).2.symm)

lemma mem_addresses_merge :
    x ∈ (g.merge other).addresses ↔ x ∈ g.addresses ∨ x ∈ other.addresses := by
  rw [← member_isSome_iff, ← member_isSome_iff, ← member_isSome_iff,
    member_merge_of_keeps hU hg ho hk]
  cases g.member x <;> cases other.member x <;> simp

lemma within_addresses_merge :
    g.reachability.Within (g.merge other).addresses.dedup ∧
      other.reachability.Within (g.merge other).addresses.dedup := by
  refine ⟨hg.observed.mono fun x hx => ?_, ho.observed.mono fun x hx => ?_⟩ <;>
    rw [mem_dedup, mem_addresses_merge hU hg ho hk]
  exacts [.inl hx, .inr hx]

omit hk in
lemma wellFormed_merge : (g.merge other).WellFormed U where
  sorted := (mergeMembers_spec hU hg.sorted ho.sorted hg.known ho.known).1
  known m hm := (mem_of_mem_mergeMembers hm).elim (hg.known m) (ho.known m)
  present m hm := (mem_of_mem_mergeMembers hm).elim (hg.present m) (ho.present m)
  aged m hm := (mem_of_mem_mergeMembers hm).elim (hg.aged m) (ho.aged m)
  observed := by
    rw [reachability_merge]
    exact (Reachability.within_merge _ _ _).mono fun x hx => mem_dedup.mp hx

/-- **Where no member is dropped, a merge is the join.** -/
theorem content_merge : (g.merge other).content = g.content ⊔ other.content := by
  obtain ⟨hw, hw'⟩ := within_addresses_merge hU hg ho hk
  refine Prod.ext (funext fun x => factOf_member_merge hU hg ho hk x) (funext fun o => ?_)
  show (g.merge other).reachability.version o = _
  rw [reachability_merge, Reachability.version_merge hw hw']
  rfl

/-- The merged row of an observer is the row of one of the sides with the merged version. -/
lemma status_merge (o s : UniqueAddress) :
    (g.merge other).reachability.status o s =
      if other.reachability.version o ≤ g.reachability.version o then g.reachability.status o s
      else other.reachability.status o s := by
  obtain ⟨hw, hw'⟩ := within_addresses_merge hU hg ho hk
  rw [reachability_merge, Reachability.status_merge hw hw' (nodup_dedup _)]

end Merge

end Gossip

end Kairo.Cluster
