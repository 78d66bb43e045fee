import Kairo.DistributedData.Counters

/-!
# Late data after a pruning

A pruning moves the contribution of a removed replica to the owner of its marker.  It is to keep the
value, also when a late state from before the pruning is merged (`PruningKeeps`).  Such a merge is the
merge with the cleaned late data (`data_mergePruned_late`); for both kinds of counters that data adds
nothing.
-/

namespace Kairo.DistributedData

open Kairo.Lib DeltaReplicatedData RemovedNodePruning LawfulPruning PruningTable FinMap GCounter
  DataEnvelope

/-! ## Late envelopes -/

section

variable {D Δ R : Type*} [LinearOrder R] [DeltaReplicatedData D Δ] [RemovedNodePruning D R]

/-- The late envelope brings nothing new, neither data nor markers. -/
structure DataEnvelope.Below (late pre : DataEnvelope D R) : Prop where
  data : DeltaReplicatedData.merge pre.data late.data = resetDelta pre.data
  pruning : pre.pruning.merge late.pruning = pre.pruning

/-- A merge keeps the contributions of its right side, and resetting the delta keeps them all. -/
class TracksReplicas (D : Type*) (Δ R : outParam (Type*)) [DeltaReplicatedData D Δ]
    [RemovedNodePruning D R] : Prop extends LawfulPruning D Δ R where
  needPruningFrom_merge_right (a b : D) (r : R) : needPruningFrom b r = true →
    needPruningFrom (merge a b) r = true
  needPruningFrom_resetDelta (a : D) (r : R) : needPruningFrom (resetDelta a) r = needPruningFrom a r

/-- Pruning `removed` into `owner` keeps the value of `p` and leaves no trace of `removed`, and so does
the merge of the pruned envelope with any late envelope before the deadline of the marker. -/
def PruningKeeps {V : Type*} (Good : D → Prop) (value : D → V) (Trace : D → R → Prop) (p : D)
    (removed owner : R) : Prop :=
  ∀ p', prune p removed owner = .ok p' →
    (value p' = value p ∧ ¬ Trace p' removed) ∧
    ∀ (t : PruningTable R) (seen : Finset R) (marker : PruningPerformed)
      (pruned late : DataEnvelope D R) (now : ℕ),
      t.get removed = some (.initialized ⟨owner, seen⟩) →
      (∀ r ∈ t.performed, r ≠ owner ∧ needPruningFrom p r = false) →
      DataEnvelope.pruneRemovedNode ⟨p, t⟩ removed marker = .ok pruned →
      Good late.data → late.Below ⟨p, t⟩ → now < marker.obsoleteAtMillis →
      value (pruned.mergePruned late now).data = value p ∧
        ¬ Trace (pruned.mergePruned late now).data removed

variable {p p' : D} {t : PruningTable R} {removed owner : R} {seen : Finset R}
  {marker : PruningPerformed} {late : DataEnvelope D R} {now : ℕ}

omit [DeltaReplicatedData D Δ] [RemovedNodePruning D R] in
/-- The performed replicas of the merged markers: the pruned one, and those performed before. -/
lemma mem_performed_late {t' : PruningTable R} (hpre : t.merge t' = t)
    (hmarker : t.get removed = some (.initialized ⟨owner, seen⟩))
    (hnow : now < marker.obsoleteAtMillis) :
    removed ∈ ((t.markPerformed removed marker.obsoleteAtMillis).mergeWithoutObsolete t'
      now).performed ∧
    ∀ r, r ∈ ((t.markPerformed removed marker.obsoleteAtMillis).mergeWithoutObsolete t'
      now).performed → r = removed ∨ r ∈ t.performed := by
  have hget : ∀ r, (t.merge t').get r = t.get r := fun r => by rw [hpre]
  constructor
  · rw [mem_performed]
    refine ⟨⟨marker.obsoleteAtMillis⟩, ?_⟩
    -- the late marker cannot be performed, for the merge with it is still initialized
    have hlate : ∀ m, t'.get removed ≠ some (.performed m) := by
      intro m hm
      have h := hget removed
      rw [get_merge, hmarker, hm] at h
      cases Option.some.inj h
    rw [get_mergeWithoutObsolete, get_merge, get_markPerformed, if_pos rfl]
    have hkeep : ((some (PruningState.performed ⟨marker.obsoleteAtMillis⟩)).filter
        (!PruningState.isObsolete now ·) : Option (PruningState R)) =
        some (.performed ⟨marker.obsoleteAtMillis⟩) := by
      rw [Option.filter_some_pos]
      simpa [PruningState.isObsolete, PruningPerformed.isObsolete] using hnow
    cases hl : t'.get removed with
    | none => exact hkeep
    | some m =>
      cases m with
      | initialized m => exact hkeep
      | performed m => exact absurd hl (hlate m)
  · intro r hr
    by_cases he : r = removed
    · exact .inl he
    · right
      obtain ⟨m, hm⟩ := mem_performed.mp hr
      rw [get_mergeWithoutObsolete] at hm
      have hm' := (Option.filter_eq_some_iff.mp hm).1
      rw [get_merge, get_markPerformed, if_neg he] at hm'
      have h := hget r
      rw [get_merge, hm'] at h
      exact mem_performed.mpr ⟨m, h.symm⟩

/-- **The merge with a late envelope is the merge with its cleaned data.** -/
theorem data_mergePruned_late [TracksReplicas D Δ R]
    (hprune : prune p removed owner = .ok p') (hclean : needPruningFrom p' removed = false)
    (hfrom : ∀ r, needPruningFrom p' r = true → r = owner ∨ needPruningFrom p r = true)
    {pruned : DataEnvelope D R} (hmarker : t.get removed = some (.initialized ⟨owner, seen⟩))
    (hperformed : ∀ r ∈ t.performed, r ≠ owner ∧ needPruningFrom p r = false)
    (hpruned : pruneRemovedNode ⟨p, t⟩ removed marker = .ok pruned)
    (hlate : late.Below ⟨p, t⟩) (hnow : now < marker.obsoleteAtMillis) :
    (pruned.mergePruned late now).data =
      DeltaReplicatedData.merge p' (cleanupReplica late.data removed) := by
  have he : pruned = ⟨p', t.markPerformed removed marker.obsoleteAtMillis⟩ := by
    rw [pruneRemovedNode, hmarker] at hpruned
    dsimp only at hpruned
    rw [hprune] at hpruned
    cases hpruned
    rfl
  obtain ⟨hremoved, hmem⟩ := mem_performed_late hlate.pruning hmarker hnow
  have hbelow : ∀ r, needPruningFrom late.data r = true → needPruningFrom p r = true := by
    intro r hr
    have h := TracksReplicas.needPruningFrom_merge_right p late.data r hr
    rw [hlate.data] at h
    exact (TracksReplicas.needPruningFrom_resetDelta p r).symm.trans h
  rw [he, mergePruned]
  dsimp only
  congr 1
  · -- the pruned data holds no contribution of a performed replica
    refine cleanupPerformed_eq_self fun r hr => ?_
    rcases hmem r hr with rfl | ht
    · exact hclean
    · by_contra hneed
      rw [Bool.not_eq_false] at hneed
      obtain ⟨hne, hp⟩ := hperformed r ht
      rcases hfrom r hneed with h | h
      · exact hne h
      · rw [hp] at h
        cases h
  · refine cleanupPerformed_eq_cleanupReplica hremoved fun r hr hne => ?_
    by_contra hneed
    rw [Bool.not_eq_false] at hneed
    have hp := (hperformed r ((hmem r hr).resolve_left hne)).2
    rw [hbelow r hneed] at hp
    cases hp

end

/-! ## Grow-only counters -/

namespace GCounter

section Basic

variable {R : Type*} [DecidableEq R]

instance : TracksReplicas (GCounter R) (GCounter R) R where
  needPruningFrom_merge_right _ _ _ h := FinMap.isSome_lookup_raise_right h
  needPruningFrom_resetDelta _ _ := rfl

variable {c c' late : GCounter R} {removed owner : R}

lemma prune_eq_ok (h : c.prune removed owner = .ok c') :
    c.state.lookup removed = none ∧ c' = c ∨
      (c.state.lookup removed).isSome ∧ c'.state =
        (c.state.erase removed).insert owner (c.state.count owner + c.state.count removed) := by
  unfold prune at h
  cases hl : c.state.lookup removed with
  | none =>
    rw [hl] at h
    exact .inl ⟨rfl, (Except.ok.inj h).symm⟩
  | some v =>
    rw [hl] at h
    dsimp only at h
    have hv : c.state.count removed = v := by rw [count, hl]; rfl
    refine .inr ⟨rfl, ?_⟩
    rw [hv]
    by_cases hle : c.replicaValue owner + v ≤ u128Max
    · rw [checkedAdd, if_pos hle] at h
      exact congrArg state (Except.ok.inj h).symm
    · rw [checkedAdd, if_neg hle] at h
      cases h

lemma count_prune (h : c.prune removed owner = .ok c') (r : R) :
    c'.state.count r =
      if r = owner then c.state.count owner + c.state.count removed
      else if r = removed then 0 else c.state.count r := by
  rcases prune_eq_ok h with ⟨hl, rfl⟩ | ⟨-, hs⟩
  · have h0 : c'.state.count removed = 0 := by rw [count, hl]; rfl
    split_ifs with h1 h2
    · rw [h1, h0, add_zero]
    · rw [h2, h0]
    · rfl
  · rw [hs, count_insert, count_erase]

lemma total_prune (hne : owner ≠ removed) (h : c.prune removed owner = .ok c') :
    c'.state.total = c.state.total := by
  rcases prune_eq_ok h with ⟨-, rfl⟩ | ⟨-, hs⟩
  · rfl
  · have h1 := total_insert (c.state.erase removed) owner
      (c.state.count owner + c.state.count removed)
    have h2 := total_erase c.state removed
    rw [count_erase, if_neg hne] at h1
    rw [hs]
    omega

lemma needPruningFrom_prune (hne : owner ≠ removed) (h : c.prune removed owner = .ok c') :
    c'.needPruningFrom removed = false ∧
      ∀ r, c'.needPruningFrom r = true → r = owner ∨ c.needPruningFrom r = true := by
  rcases prune_eq_ok h with ⟨hl, rfl⟩ | ⟨-, hs⟩
  · exact ⟨by rw [needPruningFrom, hl]; rfl, fun r hr => .inr hr⟩
  · constructor
    · rw [needPruningFrom, hs, lookup_insert, if_neg hne.symm, lookup_erase,
        if_pos rfl]
      rfl
    · intro r hr
      rw [needPruningFrom, hs, lookup_insert] at hr
      split_ifs at hr with h1
      · exact .inl h1
      · rw [lookup_erase] at hr
        split_ifs at hr
        · cases hr
        · exact .inr hr

lemma count_le_of_below (h : c.state.raise late.state = c.state) (r : R) :
    late.state.count r ≤ c.state.count r := by
  have hmax := count_raise c.state late.state r
  rw [h] at hmax
  omega

/-- Cleaned late components change no component of the pruned counter. -/
lemma total_merge_late (hne : owner ≠ removed) (h : c.prune removed owner = .ok c')
    (hlate : c.state.raise late.state = c.state) {cleaned : GCounter R}
    (hcleaned : ∀ r, cleaned.state.count r = if r = removed then 0 else late.state.count r) :
    (c'.merge cleaned).state.total = c.state.total := by
  rw [← total_prune hne h]
  refine total_congr fun r => ?_
  have hle := count_le_of_below hlate r
  have hmax := count_raise c'.state cleaned.state r
  have hc := hcleaned r
  have hp := count_prune h r
  show (c'.state.raise cleaned.state).count r = _
  rw [hmax, hc]
  by_cases h1 : r = removed
  · rw [if_pos h1, Nat.max_zero]
  · rw [if_neg h1] at hp ⊢
    by_cases h2 : r = owner
    · rw [if_pos h2] at hp
      rw [h2] at hle hp ⊢
      omega
    · rw [if_neg h2] at hp
      omega

lemma count_of_clean (h : ¬ c.needPruningFrom removed = true) (r : R) :
    c.state.count r = if r = removed then 0 else c.state.count r := by
  split_ifs with hr
  · rw [needPruningFrom, Bool.not_eq_true, Option.isSome_eq_false_iff,
      Option.isNone_iff_eq_none] at h
    rw [hr, count, h]
    rfl
  · rfl

end Basic

variable {R : Type*} [LinearOrder R] {removed owner : R}

lemma count_cleanupReplica (c : GCounter R) (removed r : R) :
    (cleanupReplica c removed).state.count r = if r = removed then 0 else c.state.count r := by
  unfold cleanupReplica
  by_cases h : RemovedNodePruning.needPruningFrom c removed = true
  · rw [if_pos h]
    exact count_erase _ _ _
  · rw [if_neg h]
    exact count_of_clean h r

lemma value_eq_of_total {c c' : GCounter R} (h : c.state.total = c'.state.total) :
    c.value = c'.value := by
  rw [value_eq, value_eq, h]

lemma pruningKeeps (c : GCounter R) (hne : owner ≠ removed) :
    PruningKeeps (fun _ => True) value (fun c r => c.needPruningFrom r = true) c removed owner := by
  intro c' hprune
  obtain ⟨hclean, hfrom⟩ := needPruningFrom_prune hne hprune
  refine ⟨⟨value_eq_of_total (total_prune hne hprune), Bool.not_eq_true _ ▸ hclean⟩, ?_⟩
  intro t seen marker pruned late now hmarker hperformed hpruned _ hlate hnow
  have hdata := data_mergePruned_late hprune hclean hfrom hmarker hperformed hpruned hlate hnow
  rw [hdata]
  constructor
  · refine value_eq_of_total (total_merge_late hne hprune ?_ (count_cleanupReplica late.data removed))
    exact congrArg state hlate.data
  · exact not_needPruningFrom_merge_cleanupReplica hclean late.data

end GCounter

/-! ## Counters that go up and down -/

namespace PNCounter

section Basic

variable {R : Type*} [DecidableEq R]

lemma needPruningFrom_iff {c : PNCounter R} {r : R} :
    c.needPruningFrom r = true ↔
      c.increments.needPruningFrom r = true ∨ c.decrements.needPruningFrom r = true :=
  Iff.of_eq (Bool.or_eq_true _ _)

instance : TracksReplicas (PNCounter R) (PNCounter R) R where
  needPruningFrom_merge_right _ _ _ h := needPruningFrom_iff.mpr <|
    (needPruningFrom_iff.mp h).imp FinMap.isSome_lookup_raise_right FinMap.isSome_lookup_raise_right
  needPruningFrom_resetDelta _ _ := rfl

variable {c c' : PNCounter R} {removed owner : R}

lemma prune_eq_ok (h : c.prune removed owner = .ok c') :
    c.increments.prune removed owner = .ok c'.increments ∧
      c.decrements.prune removed owner = .ok c'.decrements := by
  unfold prune at h
  cases hi : c.increments.prune removed owner with
  | error e => rw [hi] at h; cases h
  | ok increments =>
    cases hd : c.decrements.prune removed owner with
    | error e => rw [hi, hd] at h; cases h
    | ok decrements =>
      rw [hi, hd] at h
      cases h
      exact ⟨rfl, rfl⟩

lemma needPruningFrom_prune (hne : owner ≠ removed) (h : c.prune removed owner = .ok c') :
    c'.needPruningFrom removed = false ∧
      ∀ r, c'.needPruningFrom r = true → r = owner ∨ c.needPruningFrom r = true := by
  obtain ⟨hi, hd⟩ := prune_eq_ok h
  obtain ⟨hci, hfi⟩ := GCounter.needPruningFrom_prune hne hi
  obtain ⟨hcd, hfd⟩ := GCounter.needPruningFrom_prune hne hd
  refine ⟨by rw [needPruningFrom, hci, hcd]; rfl, fun r hr => ?_⟩
  rw [needPruningFrom_iff] at hr ⊢
  rcases hr with hr | hr
  · exact (hfi r hr).imp_right .inl
  · exact (hfd r hr).imp_right .inr

lemma count_cleanupReplica (c : PNCounter R) (removed r : R) :
    (cleanupReplica c removed).increments.state.count r =
        (if r = removed then 0 else c.increments.state.count r) ∧
      (cleanupReplica c removed).decrements.state.count r =
        if r = removed then 0 else c.decrements.state.count r := by
  unfold cleanupReplica
  by_cases h : RemovedNodePruning.needPruningFrom c removed = true
  · rw [if_pos h]
    exact ⟨count_erase _ _ _, count_erase _ _ _⟩
  · rw [if_neg h]
    obtain ⟨hi, hd⟩ := not_or.mp (mt needPruningFrom_iff.mpr h)
    exact ⟨GCounter.count_of_clean hi r, GCounter.count_of_clean hd r⟩

end Basic

variable {R : Type*} [LinearOrder R]

lemma value_eq_of_total {c c' : PNCounter R}
    (hi : c.increments.state.total = c'.increments.state.total)
    (hd : c.decrements.state.total = c'.decrements.state.total) : c.value = c'.value := by
  rw [value, value, GCounter.value_eq_of_total hi, GCounter.value_eq_of_total hd]

lemma pruningKeeps (c : PNCounter R) (hne : owner ≠ removed) :
    PruningKeeps (fun _ => True) value (fun c r => c.needPruningFrom r = true) c removed owner := by
  intro c' hprune
  obtain ⟨hi, hd⟩ := prune_eq_ok hprune
  obtain ⟨hclean, hfrom⟩ := needPruningFrom_prune hne hprune
  refine ⟨⟨value_eq_of_total (total_prune hne hi) (total_prune hne hd),
    Bool.not_eq_true _ ▸ hclean⟩, ?_⟩
  intro t seen marker pruned late now hmarker hperformed hpruned _ hlate hnow
  rw [data_mergePruned_late hprune hclean hfrom hmarker hperformed hpruned hlate hnow]
  constructor
  · refine value_eq_of_total ?_ ?_
    · exact total_merge_late hne hi
        (congrArg (fun c : PNCounter R => c.increments.state) hlate.data)
        fun r => (count_cleanupReplica late.data removed r).1
    · exact total_merge_late hne hd
        (congrArg (fun c : PNCounter R => c.decrements.state) hlate.data)
        fun r => (count_cleanupReplica late.data removed r).2
  · exact not_needPruningFrom_merge_cleanupReplica hclean late.data

end PNCounter

end Kairo.DistributedData
