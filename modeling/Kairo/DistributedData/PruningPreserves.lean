import Kairo.DistributedData.LatePruning
import Kairo.DistributedData.ORSetCoverage

/-!
# Pruning preserves the value

For sets the elements of the removed replica get a fresh dot of the owner, and the late state must not
have seen it.  A saturated counter gives no fresh dot: then, and only then, a late state takes elements
away (`ORSet.pruningKeeps_iff`).
-/

namespace Kairo.DistributedData

open Kairo.Lib DeltaReplicatedData RemovedNodePruning LawfulPruning ORSetCore Cluster FinMap
  VersionVector

namespace ORSet

variable {T R : Type*} [LinearOrder T] [LinearOrder R] {x : T}

instance : TracksReplicas (ORSet T R) (ORSetDelta T R) R where
  needPruningFrom_merge_right _ _ _ h := FinMap.isSome_lookup_raise_right h
  needPruningFrom_resetDelta _ _ := rfl

/-- The set mentions the replica in its context or in a dot. -/
def Traces (s : ORSet T R) (r : R) : Prop := s.needPruningFrom r = true ∨ ∃ x n, s.HasDot x r n

def elementSet (s : ORSet T R) : Finset T := s.elements.keys

omit [LinearOrder R] in
lemma mem_elementSet {s : ORSet T R} : x ∈ s.elementSet ↔ s.contains x = true := by
  rw [elementSet, Finmap.mem_keys, mem_iff_isSome]
  rfl

/-- The fresh dots of a pruning are new: the owner's counter is not saturated, or every touched element
holds the last dot of the owner already. -/
def HasFreshDots (s : ORSet T R) (removed owner : R) : Prop :=
  s.versionVector.versionAt owner < Cluster.u64Max ∨
    ∀ x ∈ s.touched removed, s.HasDot x owner Cluster.u64Max

variable {s late : ORSet T R} {removed owner : R} {r : R}

lemma needPruningFrom_iff (hs : s.WellFormed) :
    s.needPruningFrom r = true ↔ s.versionVector.versionAt r ≠ 0 := by
  rw [needPruningFrom, VersionVector.needPruningFrom_iff]
  constructor
  · rintro ⟨n, hn⟩ h0
    exact hs.positive r (hn.versionAt.symm.trans h0 ▸ hn)
  · intro h
    cases hv : s.versionVector.entries.lookup r with
    | none => exact absurd (by rw [versionAt, count, hv]; rfl) h
    | some n => exact ⟨n, hv⟩

/-- A valid set mentions a replica only if its context does. -/
lemma Valid.traces_iff (hs : s.Valid) : s.Traces r ↔ s.versionVector.versionAt r ≠ 0 := by
  rw [Traces, needPruningFrom_iff hs.wellFormed]
  refine ⟨fun h => h.elim id ?_, .inl⟩
  rintro ⟨x, n, h⟩ h0
  have hle := hs.covered x r n h
  obtain rfl : n = 0 := by omega
  exact hs.wellFormed.dotsPositive x r h

lemma versionAt_prune_removed (hne : owner ≠ removed) :
    (s.prune removed owner).versionVector.versionAt removed = 0 := by
  have hcore := s.toORSetCore_prune removed owner
  rw [hcore, ORSetCore.prune, ORSetCore.versionAt_addAll_of_ne hne.symm]
  have h := versionAt_prune s.versionVector removed owner removed
  rw [if_neg hne.symm, if_pos rfl] at h
  exact h

lemma cleanupReplica_spec (hs : s.Valid) (removed : R) :
    (cleanupReplica s removed).Valid ∧
    (∀ x r n, (cleanupReplica s removed).HasDot x r n ↔ r ≠ removed ∧ s.HasDot x r n) ∧
    ∀ r, (cleanupReplica s removed).versionVector.versionAt r =
      if r = removed then 0 else s.versionVector.versionAt r := by
  have hneed : RemovedNodePruning.needPruningFrom s removed = s.needPruningFrom removed := rfl
  unfold cleanupReplica
  rw [hneed]
  by_cases h : s.needPruningFrom removed = true
  · rw [if_pos h]
    exact ⟨hs.perform (.pruningCleanup removed) trivial trivial, fun x r n => hasDot_pruningCleanup,
      fun r => s.versionVector.versionAt_pruningCleanup removed r⟩
  · rw [if_neg h]
    rw [needPruningFrom_iff hs.wellFormed, not_not] at h
    refine ⟨hs, fun x r n => ⟨fun hdot => ⟨?_, hdot⟩, fun hdot => hdot.2⟩, fun r => ?_⟩
    · rintro rfl
      exact (hs.traces_iff.mp (.inr ⟨x, n, hdot⟩)) h
    · split_ifs with hr
      · rw [hr, h]
      · rfl

lemma Valid.contains_iff (hs : s.Valid) : s.contains x = true ↔ ∃ r n, s.HasDot x r n := by
  refine ⟨hs.wellFormed.inhabited x, ?_⟩
  rintro ⟨r, n, dots, hd, -⟩
  exact ORSetCore.contains_iff.mpr ⟨dots, hd⟩

/-- What a late state says: its context is covered, and it has retired no dot. -/
lemma of_below (hs : s.Valid) (hl : late.Valid)
    (h : s.toORSetCore.merge late.toORSetCore = s.toORSetCore) :
    (∀ r, late.versionVector.versionAt r ≤ s.versionVector.versionAt r) ∧
      ∀ x r n, s.HasDot x r n → late.HasDot x r n ∨ late.versionVector.versionAt r < n := by
  have hle : ∀ r, late.versionVector.versionAt r ≤ s.versionVector.versionAt r := by
    intro r
    have hmax := versionAt_merge s.toORSetCore late.toORSetCore r
    rw [h] at hmax
    omega
  refine ⟨hle, fun x r n hdot => ?_⟩
  rw [← h] at hdot
  rcases (hasDot_merge_iff hs.covered hl.covered hs.wellFormed.dotsPositive).mp hdot with
    ⟨-, hd⟩ | ⟨-, hlt⟩ | ⟨hd, -⟩
  · exact .inl hd
  · exact .inr hlt
  · exact .inl hd

/-- The dot that a touched element gets, unless the owner's counter is saturated, is above every dot the
owner had before. -/
lemma hasDot_prune_of_touched (hs : s.Valid) (hne : owner ≠ removed)
    (hx : x ∈ s.touched removed) :
    ∃ k, (∀ r n, (s.prune removed owner).HasDot x r n ↔ r = owner ∧ n = k) ∧ k ≤ u64Max ∧
      (s.versionVector.versionAt owner < u64Max → s.versionVector.versionAt owner < k) ∧
      (s.versionVector.versionAt owner = u64Max → k = u64Max) := by
  have hcore := s.toORSetCore_prune removed owner
  rcases hasDot_prune s.toORSetCore removed owner x with ⟨-, k, hlo, hhi, hdots⟩ | ⟨h, -⟩
  · have hbase := versionAt_prune s.versionVector removed owner owner
    rw [if_pos rfl, if_neg hne] at hbase
    have hbase' : (s.toORSetCore.pruneBase removed owner).versionVector.versionAt owner =
        min (s.versionVector.versionAt owner + 1) u64Max := hbase
    have hmax : (s.toORSetCore.prune removed owner).versionVector.versionAt owner ≤
        u64Max := by
      rw [← hcore]
      exact (hs.prune removed owner).wellFormed.bounded owner
    refine ⟨k, fun r n => ?_, by omega, fun h => by omega, fun h => by omega⟩
    rw [hcore]
    exact hdots r n
  · exact absurd hx h

lemma hasDot_prune_of_notMem (hx : x ∉ s.touched removed) {n : ℕ} :
    (s.prune removed owner).HasDot x r n ↔ s.HasDot x r n := by
  rw [s.toORSetCore_prune removed owner]
  rcases hasDot_prune s.toORSetCore removed owner x with ⟨h, -⟩ | ⟨-, hdots⟩
  · exact absurd h hx
  · exact hdots r n

section LateState

variable (hs : s.Valid) (hl : late.Valid) (hne : owner ≠ removed)
  (hbelow : s.toORSetCore.merge late.toORSetCore = s.toORSetCore)

include hs hl hne hbelow

omit hne in
lemma contains_of_merge_late
    (h : ((s.prune removed owner).merge (cleanupReplica late removed)).contains x = true) :
    s.contains x = true := by
  obtain ⟨hlv, hldots, hlvv⟩ := cleanupReplica_spec hl removed
  have hp := hs.prune removed owner
  obtain ⟨hle, -⟩ := of_below hs hl hbelow
  obtain ⟨r, n, hdot⟩ := (hp.merge hlv).contains_iff.mp h
  rcases (hasDot_merge_iff hp.covered hlv.covered hp.wellFormed.dotsPositive).mp hdot with
    ⟨hd, -⟩ | ⟨hd, -⟩ | ⟨hd, hlt⟩
  · exact contains_prune.mp (hp.contains_iff.mpr ⟨r, n, hd⟩)
  · exact contains_prune.mp (hp.contains_iff.mpr ⟨r, n, hd⟩)
  · -- a late dot is covered by the pruned context
    obtain ⟨hr, hd⟩ := (hldots x r n).mp hd
    have h1 := hl.covered x r n hd
    have h2 := hle r
    have h3 := versionAt_le_prune hs.wellFormed.bounded hr owner
    rw [← s.toORSetCore_prune removed owner] at h3
    omega

lemma contains_merge_late (hfresh : s.HasFreshDots removed owner) (hx : s.contains x = true) :
    ((s.prune removed owner).merge (cleanupReplica late removed)).contains x = true := by
  obtain ⟨hlv, hldots, hlvv⟩ := cleanupReplica_spec hl removed
  have hp := hs.prune removed owner
  obtain ⟨hle, hretired⟩ := of_below hs hl hbelow
  -- a dot of the pruned set that the late state holds or has not seen survives
  have key : ∀ r n, r ≠ removed → (s.prune removed owner).HasDot x r n →
      late.HasDot x r n ∨ late.versionVector.versionAt r < n →
      ((s.prune removed owner).merge (cleanupReplica late removed)).contains x = true := by
    intro r n hr hd hor
    refine (hp.merge hlv).contains_iff.mpr ⟨r, n, ?_⟩
    refine (hasDot_merge_iff hp.covered hlv.covered hp.wellFormed.dotsPositive).mpr ?_
    rcases hor with h | h
    · exact .inl ⟨hd, (hldots x r n).mpr ⟨hr, h⟩⟩
    · refine .inr (.inl ⟨hd, ?_⟩)
      rw [hlvv r, if_neg hr]
      exact h
  by_cases ht : x ∈ s.touched removed
  · obtain ⟨k, hdots, hk, hnew, hlast⟩ := hasDot_prune_of_touched hs hne ht
    refine key owner k hne ((hdots owner k).mpr ⟨rfl, rfl⟩) ?_
    have hole := hle owner
    rcases Nat.lt_or_ge (s.versionVector.versionAt owner) u64Max with hlt | hge
    · exact .inr (hole.trans_lt (hnew hlt))
    · have heq := le_antisymm (hs.wellFormed.bounded owner) hge
      rcases hfresh with hlt | hall
      · omega
      · rw [hlast heq]
        exact hretired x owner _ (hall x ht)
  · obtain ⟨r, n, hd⟩ := hs.contains_iff.mp hx
    refine key r n ?_ ((hasDot_prune_of_notMem ht).mpr hd) (hretired x r n hd)
    rintro rfl
    exact ht (mem_touched.mpr ⟨n, hd⟩)

end LateState

/-- A saturated owner loses the touched elements to the state before the pruning. -/
lemma hasFreshDots_of_contains (hs : s.Valid) (hne : owner ≠ removed)
    (h : ∀ x, s.contains x = true →
      ((s.prune removed owner).merge (cleanupReplica s removed)).contains x = true) :
    s.HasFreshDots removed owner := by
  rcases Nat.lt_or_ge (s.versionVector.versionAt owner) u64Max with hlt | hge
  · exact .inl hlt
  · refine .inr fun x hx => ?_
    have heq := le_antisymm (hs.wellFormed.bounded owner) hge
    obtain ⟨hlv, hldots, hlvv⟩ := cleanupReplica_spec hs removed
    have hp := hs.prune removed owner
    obtain ⟨k, hdots, -, -, hlast⟩ := hasDot_prune_of_touched hs hne hx
    have hcontains : s.contains x = true := by
      obtain ⟨n, hn⟩ := mem_touched.mp hx
      exact hs.contains_iff.mpr ⟨removed, n, hn⟩
    obtain ⟨r, n, hdot⟩ := (hp.merge hlv).contains_iff.mp (h x hcontains)
    rcases (hasDot_merge_iff hp.covered hlv.covered hp.wellFormed.dotsPositive).mp
      hdot with ⟨hd, hd'⟩ | ⟨hd, hlt⟩ | ⟨hd, hlt⟩
    · obtain ⟨rfl, rfl⟩ := (hdots r n).mp hd
      rw [hlast heq] at hd'
      exact ((hldots x r _).mp hd').2
    · obtain ⟨rfl, rfl⟩ := (hdots r n).mp hd
      rw [hlvv r, if_neg hne, hlast heq] at hlt
      omega
    · obtain ⟨hr, hd⟩ := (hldots x r n).mp hd
      have h1 := hs.covered x r n hd
      have h3 := versionAt_le_prune hs.wellFormed.bounded hr owner
      rw [← s.toORSetCore_prune removed owner] at h3
      omega

lemma not_traces_prune (hs : s.Valid) (hne : owner ≠ removed) :
    ¬ (s.prune removed owner).Traces removed := by
  rw [(hs.prune removed owner).traces_iff, not_not]
  exact versionAt_prune_removed hne

lemma needPruningFrom_prune (hs : s.Valid) (hne : owner ≠ removed) :
    (s.prune removed owner).needPruningFrom removed = false ∧
      ∀ r, (s.prune removed owner).needPruningFrom r = true → r = owner ∨
        s.needPruningFrom r = true := by
  have hp := hs.prune removed owner
  constructor
  · rw [← Bool.not_eq_true, needPruningFrom_iff hp.wellFormed, not_not]
    exact versionAt_prune_removed hne
  · intro r hr
    by_cases ho : r = owner
    · exact .inl ho
    · right
      rw [needPruningFrom_iff hp.wellFormed, s.toORSetCore_prune removed owner, ORSetCore.prune,
        versionAt_addAll_of_ne ho] at hr
      have h := versionAt_prune s.versionVector removed owner r
      rw [if_neg ho] at h
      rw [needPruningFrom_iff hs.wellFormed]
      intro h0
      refine hr (h.trans ?_)
      split_ifs
      · rfl
      · exact h0

/-- **Pruning keeps the elements of a set exactly where the fresh dots are new.** -/
theorem pruningKeeps_iff (hs : s.Valid) (hne : owner ≠ removed) :
    PruningKeeps Valid elementSet Traces s removed owner ↔ s.HasFreshDots removed owner := by
  have hprune : RemovedNodePruning.prune s removed owner = .ok (s.prune removed owner) := rfl
  have hp := hs.prune removed owner
  obtain ⟨hclean, hfrom⟩ := needPruningFrom_prune hs hne
  constructor
  · intro h
    refine hasFreshDots_of_contains hs hne fun x hx => ?_
    -- the state before the pruning is late
    let t : PruningTable R := PruningTable.new.initializeFor removed owner
    have hmarker : t.get removed = some (.initialized ⟨owner, ∅⟩) := by
      rw [PruningTable.get_initializeFor, if_pos rfl]
      rfl
    have hnone : ∀ r ∈ t.performed, r ≠ owner ∧ RemovedNodePruning.needPruningFrom s r = false := by
      intro r hr
      obtain ⟨m, hm⟩ := PruningTable.mem_performed.mp hr
      rw [PruningTable.get_initializeFor] at hm
      split_ifs at hm
      · cases Option.some.inj hm
      · cases hm
    have hlate : (⟨s, t⟩ : DataEnvelope (ORSet T R) R).Below ⟨s, t⟩ := by
      constructor
      · exact congrArg (fun c => (⟨c, none⟩ : ORSet T R)) (merge_self hs.wellFormed hs.covered)
      · exact PruningTable.merge_self t
    obtain ⟨pruned, hpruned⟩ : ∃ pruned,
        DataEnvelope.pruneRemovedNode ⟨s, t⟩ removed ⟨1⟩ = .ok pruned := by
      rw [DataEnvelope.pruneRemovedNode, hmarker]
      exact ⟨_, rfl⟩
    have hkeep := ((h _ hprune).2 t ∅ ⟨1⟩ pruned ⟨s, t⟩ 0 hmarker hnone hpruned hs hlate
      Nat.zero_lt_one).1
    rw [data_mergePruned_late hprune hclean hfrom hmarker hnone hpruned hlate Nat.zero_lt_one] at hkeep
    have hmem := Finset.ext_iff.mp hkeep x
    rw [mem_elementSet, mem_elementSet] at hmem
    exact hmem.mpr hx
  · intro hfresh p' hp'
    obtain rfl : s.prune removed owner = p' := Except.ok.inj hp'
    refine ⟨⟨?_, not_traces_prune hs hne⟩, ?_⟩
    · ext x
      rw [mem_elementSet, mem_elementSet, contains_prune]
    · intro t seen marker pruned late now hmarker hperformed hpruned hgood hlate hnow
      rw [data_mergePruned_late hprune hclean hfrom hmarker hperformed hpruned hlate hnow]
      have hbelow : s.toORSetCore.merge late.data.toORSetCore = s.toORSetCore :=
        congrArg ORSet.toORSetCore hlate.data
      obtain ⟨hlv, -, hlvv⟩ := cleanupReplica_spec hgood removed
      constructor
      · ext x
        rw [mem_elementSet, mem_elementSet]
        exact ⟨contains_of_merge_late hs hgood hbelow,
          contains_merge_late hs hgood hne hbelow hfresh⟩
      · intro htrace
        refine (hp.merge hlv).traces_iff.mp htrace ?_
        have hmax := versionAt_merge (s.prune removed owner).toORSetCore
          (cleanupReplica late.data removed).toORSetCore removed
        rw [hlvv removed, if_pos rfl, versionAt_prune_removed hne] at hmax
        exact hmax

end ORSet

/-- **A pruning keeps the value and leaves no trace of the removed replica, also after a late merge**:
always for counters, and for sets exactly where the fresh dots are new. -/
theorem pruning_keeps_value {T R : Type*} [LinearOrder T] [LinearOrder R] {removed owner : R}
    (hne : owner ≠ removed) :
    (∀ c : GCounter R, PruningKeeps (fun _ => True) GCounter.value
      (fun c r => c.needPruningFrom r = true) c removed owner) ∧
    (∀ c : PNCounter R, PruningKeeps (fun _ => True) PNCounter.value
      (fun c r => c.needPruningFrom r = true) c removed owner) ∧
    ∀ s : ORSet T R, s.Valid →
      (PruningKeeps ORSet.Valid ORSet.elementSet ORSet.Traces s removed owner ↔
        s.HasFreshDots removed owner) :=
  ⟨fun c => c.pruningKeeps hne, fun c => c.pruningKeeps hne,
    fun _ hs => ORSet.pruningKeeps_iff hs hne⟩

/-! ## A saturated owner -/

namespace SaturatedOwner

/-- Replica 0 has added an element, and the counter of replica 1 has reached the 64-bit maximum. -/
def saturated : ORSet ℕ (Fin 2) :=
  ⟨⟨Finmap.singleton 7 (.one 0 1),
    ⟨(Finmap.singleton 0 1 : FinMap (Fin 2) ℕ).insert 1 Cluster.u64Max⟩⟩, none⟩

/-- Replica 0 is pruned into replica 1 and the state from before comes late. -/
def afterLate : Except CrdtError (ORSet ℕ (Fin 2)) :=
  (((DataEnvelope.new saturated).initRemovedNodePruning 0 1).pruneRemovedNode 0 ⟨100⟩).map
    fun pruned => (pruned.mergePruned (DataEnvelope.new saturated) 0).data

lemma hasDot_saturated {x : ℕ} {r : Fin 2} {n : ℕ} :
    saturated.HasDot x r n ↔ x = 7 ∧ r = 0 ∧ n = 1 := by
  have h : saturated.elements.lookup x = if x = 7 then some (.one 0 1) else none :=
    lookup_singleton 7 x _
  unfold ORSetCore.HasDot
  rw [h]
  split_ifs with hx
  · simp [hx, has_one]
  · simp [hx]

lemma versionAt_saturated (r : Fin 2) :
    saturated.versionVector.versionAt r = if r = 0 then 1 else u64Max := by
  revert r
  decide +kernel

lemma valid_saturated : saturated.Valid where
  covered x r n h := by
    obtain ⟨-, rfl, rfl⟩ := hasDot_saturated.mp h
    exact (versionAt_saturated 0).ge
  wellFormed := by
    refine ⟨fun r => ?_, fun r h => ?_, fun x r h => ?_, fun x hx => ?_⟩
    · rw [versionAt_saturated]
      split_ifs <;> decide
    · have hv := versionAt_saturated r
      rw [h.versionAt] at hv
      split_ifs at hv
      revert hv
      decide
    · exact absurd (hasDot_saturated.mp h).2.2 (by decide)
    · refine ⟨0, 1, hasDot_saturated.mpr ⟨?_, rfl, rfl⟩⟩
      obtain ⟨dots, hd⟩ := contains_iff.mp hx
      have h : saturated.elements.lookup x = if x = 7 then some (.one 0 1) else none :=
        lookup_singleton 7 x _
      rw [h] at hd
      by_contra hne
      rw [if_neg hne] at hd
      cases hd

/-- The late state takes the element away. -/
theorem element_lost :
    saturated.Valid ∧ saturated.contains 7 = true ∧
      (∃ s, afterLate = .ok s ∧ s.contains 7 = false) ∧
      ¬ PruningKeeps ORSet.Valid ORSet.elementSet ORSet.Traces saturated 0 1 := by
  refine ⟨valid_saturated, by decide +kernel, ?_, ?_⟩
  · have h : (afterLate.toOption.any fun s => !s.contains 7) = true := by decide +kernel
    cases hlate : afterLate with
    | error e => rw [hlate] at h; cases h
    | ok s =>
      rw [hlate] at h
      exact ⟨s, rfl, (Bool.not_eq_true' _).mp h⟩
  · rw [ORSet.pruningKeeps_iff valid_saturated (by decide)]
    rintro (hlt | hall)
    · rw [versionAt_saturated] at hlt
      exact lt_irrefl _ hlt
    · have htouched : 7 ∈ saturated.touched 0 :=
        mem_touched.mpr ⟨1, hasDot_saturated.mpr ⟨rfl, rfl, rfl⟩⟩
      exact absurd (hasDot_saturated.mp (hall 7 htouched)).2.1 (by decide)

def fresh : ORSet ℕ (Fin 2) := ORSet.new.add 0 7

/-- With a counter that can grow the element stays. -/
theorem element_kept :
    fresh.Valid ∧ PruningKeeps ORSet.Valid ORSet.elementSet ORSet.Traces fresh (0 : Fin 2) 1 := by
  have hvalid : fresh.Valid := ORSet.valid_new.perform (.add 0 7) trivial trivial
  refine ⟨hvalid, ((pruning_keeps_value (by decide)).2.2 fresh hvalid).mpr ?_⟩
  exact .inl (by decide +kernel)

end SaturatedOwner

end Kairo.DistributedData
