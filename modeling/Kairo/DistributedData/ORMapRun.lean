import Kairo.DistributedData.ORMap
import Kairo.Lib.Machine

/-!
# Maps built by their operations

Any number of replicas work on maps: every call takes maps that exist and adds its result to the pool
of existing maps.  A delta that is merged in is the pending delta of one map of the pool, or several of
them merged in order.  In every pool the key sets are valid, and the pending deltas hold what the local
operations record (`Recorded`).
-/

namespace Kairo.DistributedData

open Kairo.Lib Option FinMap Cluster

/-! ## Calls -/

/-- A call on the maps of a pool, which are named by their position. -/
inductive MapCall (K V R : Type*)
  | create
  | put (i : ℕ) (replica : R) (key : K) (value : V)
  | updated (i : ℕ) (replica : R) (key : K) (initial : V) (modify : V → V)
  | remove (i : ℕ) (replica : R) (key : K)
  | merge (i j : ℕ)
  | mergeDelta (i j : ℕ) (more : List ℕ)
  | resetDelta (i : ℕ)

section Calls

variable {K V Δ R : Type*} {op : MapOp K V Δ R} {more : List ℕ}

abbrev MapPool (K V Δ R : Type*) := List (ORMap K V Δ R)

namespace MapPool

def pendingDelta (pool : MapPool K V Δ R) (j : ℕ) : Option (ORMapDelta K V Δ R) :=
  pool[j]?.bind (·.delta)

/-- The delta with the pending deltas of more maps merged into it, in order. -/
def mergeFrom (pool : MapPool K V Δ R) :
    ORMapDelta K V Δ R → List ℕ → Option (ORMapDelta K V Δ R)
  | d, [] => some d
  | d, j :: more => (pool.pendingDelta j).bind fun e => mergeFrom pool (d.merge e) more

def mergedDelta (pool : MapPool K V Δ R) (j : ℕ) (more : List ℕ) : Option (ORMapDelta K V Δ R) :=
  (pool.pendingDelta j).bind (pool.mergeFrom · more)

lemma mem_ops_mergeFrom {pool : MapPool K V Δ R} {d e : ORMapDelta K V Δ R}
    (h : pool.mergeFrom d more = some e) (hop : op ∈ e.ops) :
    op ∈ d.ops ∨ ∃ s ∈ pool, op ∈ mapDeltaOps s.delta := by
  induction more generalizing d with
  | nil =>
    cases h
    exact .inl hop
  | cons j more ih =>
    obtain ⟨next, hnext, hrest⟩ := bind_eq_some_iff.mp h
    obtain ⟨s, hs, hdelta⟩ := bind_eq_some_iff.mp hnext
    rcases ih hrest with hop | hop
    · rw [ORMapDelta.ops_merge, List.mem_append] at hop
      refine hop.imp id fun hop => ⟨s, List.mem_of_getElem? hs, ?_⟩
      rwa [hdelta]
    · exact .inr hop

lemma mem_ops_mergedDelta {pool : MapPool K V Δ R} {e : ORMapDelta K V Δ R} {j : ℕ}
    (h : pool.mergedDelta j more = some e) (hop : op ∈ e.ops) :
    ∃ s ∈ pool, op ∈ mapDeltaOps s.delta := by
  obtain ⟨d, hd, hrest⟩ := bind_eq_some_iff.mp h
  obtain ⟨s, hs, hdelta⟩ := bind_eq_some_iff.mp hd
  rcases mem_ops_mergeFrom hrest hop with hop | hop
  · refine ⟨s, List.mem_of_getElem? hs, ?_⟩
    rwa [hdelta]
  · exact hop

variable [DecidableEq K] [DecidableEq R] [DeltaReplicatedData V Δ]

/-- The map that a call returns; none for a map that does not exist, a missing delta or a panic. -/
def result (pool : MapPool K V Δ R) : MapCall K V R → Option (ORMap K V Δ R)
  | .create => some .new
  | .put i replica key value => pool[i]?.map (·.put replica key value)
  | .updated i replica key initial modify => pool[i]?.map (·.updated replica key initial modify)
  | .remove i replica key => pool[i]?.bind (·.remove replica key)
  | .merge i j => pool[i]?.bind fun s => pool[j]?.map s.merge
  | .mergeDelta i j more => pool[i]?.bind fun s => (pool.mergedDelta j more).map s.mergeDelta
  | .resetDelta i => pool[i]?.map (·.resetDelta)

/-- The runs of the operations, from an empty pool. -/
def machine (K V Δ R : Type*) [DecidableEq K] [DecidableEq R] [DeltaReplicatedData V Δ] :
    Machine (MapPool K V Δ R) (MapCall K V R) where
  init pool := pool = []
  step pool call := (pool.result call).map (pool ++ [·])

end MapPool

end Calls

/-! ## What the operations record -/

def addDelta {K R : Type*} [DecidableEq K] [DecidableEq R] (replica : R) (version : ℕ) (key : K) :
    ORSetDelta K R :=
  .add (single key replica version)

/-- The operations that local calls put into a pending delta. -/
inductive MapOp.Recorded {K V Δ R : Type*} [DecidableEq K] [DecidableEq R] : MapOp K V Δ R → Prop
  | put (replica : R) (version : ℕ) (key : K) (value : V) :
    version ≠ 0 → version ≤ Cluster.u64Max → Recorded (.put (addDelta replica version key) key value)
  | update (replica : R) (version : ℕ) (key : K) (valueDelta : Δ) :
    version ≠ 0 → version ≤ Cluster.u64Max →
      Recorded (.update (addDelta replica version key) (Finmap.singleton key valueDelta))
  | remove (key : K) (seen : VersionVector R) (replica : R) (version : ℕ) :
    version ≤ Cluster.u64Max → Recorded (.remove (.remove ⟨key, seen, .one replica version⟩))

section Added

variable {K R : Type*} [DecidableEq K] [DecidableEq R] {replica r : R} {version n : ℕ} {key x : K}

lemma delta_add (s : ORSet K R) (replica : R) (key : K) :
    (s.resetDelta.add replica key).delta = some (addDelta replica
      ((s.add replica key).versionVector.versionAt replica) key) :=
  rfl

end Added

/-! ## Valid maps -/

namespace ORMap

variable {K V Δ R : Type*} [LinearOrder K] [DecidableEq R]

/-- A valid key set, and a pending delta of recorded operations. -/
structure Valid (s : ORMap K V Δ R) : Prop where
  keys : s.keys.Valid
  recorded : ∀ op ∈ mapDeltaOps s.delta, op.Recorded

lemma valid_new : (new : ORMap K V Δ R).Valid :=
  ⟨ORSet.valid_new, fun _ h => absurd h List.not_mem_nil⟩

lemma versionAt_add_bounds (s : ORSet K R) (replica : R) (key : K) :
    (s.add replica key).versionVector.versionAt replica ≠ 0 ∧
      (s.add replica key).versionVector.versionAt replica ≤ u64Max := by
  have hadd := s.toORSetCore.versionAt_add replica key replica
  rw [if_pos rfl] at hadd
  have hmax : 0 < u64Max := by decide
  have heq : (s.add replica key).versionVector.versionAt replica =
      min (s.versionVector.versionAt replica + 1) u64Max := hadd
  rw [heq]
  omega

variable {s t : ORMap K V Δ R} {replica : R} {key : K}

lemma Valid.resetDelta (hs : s.Valid) : s.resetDelta.Valid :=
  ⟨⟨hs.keys.covered, hs.keys.wellFormed⟩, fun _ h => absurd h List.not_mem_nil⟩

lemma Valid.add_keys (hs : s.Valid) (replica : R) (key : K) :
    (s.keys.resetDelta.add replica key).Valid :=
  hs.resetDelta.keys.perform (.add replica key) trivial trivial

lemma Valid.record (hs : s.Valid) {keys : ORSet K R} (hkeys : keys.Valid) (values : FinMap K V)
    {next : ORMapDelta K V Δ R} (hnext : ∀ op ∈ next.ops, op.Recorded) :
    (⟨keys, values, some (.mergeOptional s.delta next)⟩ : ORMap K V Δ R).Valid := by
  refine ⟨hkeys, fun op hop => ?_⟩
  rw [mapDeltaOps_mergeOptional, List.mem_append] at hop
  exact hop.elim (hs.recorded op) (hnext op)

lemma Valid.put (hs : s.Valid) (replica : R) (key : K) (value : V) :
    (s.put replica key value).Valid := by
  obtain ⟨h0, hmax⟩ := versionAt_add_bounds s.keys replica key
  refine hs.record (hs.add_keys replica key) _ fun op hop => ?_
  obtain rfl := List.mem_singleton.mp hop
  exact .put replica _ key value h0 hmax

lemma Valid.remove (hs : s.Valid) (h : s.remove replica key = some t) : t.Valid := by
  rcases remove_cases h with rfl | ⟨hcontains, rfl⟩
  · exact hs
  · have hkeys := hs.resetDelta.keys.perform (.remove replica key) trivial trivial
    refine hs.record hkeys _ fun op hop => ?_
    obtain rfl := List.mem_singleton.mp hop
    exact .remove key s.keys.versionVector replica _ (hs.keys.wellFormed.bounded replica)

variable [DeltaReplicatedData V Δ] {d : ORMapDelta K V Δ R}

lemma Valid.updated (hs : s.Valid) (replica : R) (key : K) (initial : V) (modify : V → V) :
    (s.updated replica key initial modify).Valid := by
  obtain ⟨h0, hmax⟩ := versionAt_add_bounds s.keys replica key
  obtain ⟨keyDelta, value, op, hdelta, hop, heq⟩ := updated_eq s replica key initial modify
  rw [delta_add] at hdelta
  cases hdelta
  rw [heq]
  refine hs.record (hs.add_keys replica key) _ fun op' hop' => ?_
  rcases hop with rfl | ⟨valueDelta, rfl⟩
  · obtain rfl := List.mem_singleton.mp hop'
    exact .put replica _ key value h0 hmax
  · obtain rfl := List.mem_singleton.mp hop'
    exact .update replica _ key valueDelta h0 hmax

lemma Valid.merge (hs : s.Valid) (ht : t.Valid) : (s.merge t).Valid :=
  ⟨hs.keys.merge ht.keys, fun _ h => absurd h List.not_mem_nil⟩

lemma valid_mergeDelta_addDelta {keys : ORSet K R} (hkeys : keys.Valid) {version : ℕ}
    (h0 : version ≠ 0) (hmax : version ≤ u64Max) :
    (keys.mergeDelta (addDelta replica version key)).Valid := by
  refine hkeys.perform (.mergeDelta (addDelta replica version key)) ?_ ⟨?_, ?_⟩
  · intro set hset
    obtain rfl := SetOp.add.inj (List.mem_singleton.mp hset)
    exact covered_single
  · intro set hset
    obtain rfl := SetOp.add.inj (List.mem_singleton.mp hset)
    exact wellFormed_single h0 hmax
  · intro op hop
    cases List.mem_singleton.mp hop

lemma valid_replay {acc : ORSet K R × FinMap K V} (hkeys : acc.1.Valid) (hop : op.Recorded) :
    (replay acc op).1.Valid := by
  cases hop with
  | put replica version key value h0 hmax | update replica version key valueDelta h0 hmax =>
    exact valid_mergeDelta_addDelta hkeys h0 hmax
  | remove key seen replica version hmax =>
    refine hkeys.perform (.mergeDelta (.remove ⟨key, seen, .one replica version⟩)) ?_ ⟨?_, ?_⟩
    · intro set hset
      cases List.mem_singleton.mp hset
    · intro set hset
      cases List.mem_singleton.mp hset
    · intro op hop
      obtain rfl := SetOp.remove.inj (List.mem_singleton.mp hop)
      refine ⟨VersionVector.positive_one replica version, fun r => ?_⟩
      rw [VersionVector.versionAt_one]
      split_ifs
      · exact hmax
      · exact Nat.zero_le _

lemma valid_foldl_replay (acc : ORSet K R × FinMap K V) (hkeys : acc.1.Valid)
    {ops : List (MapOp K V Δ R)} (hops : ∀ op ∈ ops, op.Recorded) :
    (ops.foldl replay acc).1.Valid :=
  List.foldlRecOn ops replay (motive := fun acc => acc.1.Valid) hkeys fun _ hacc op h =>
    valid_replay hacc (hops op h)

lemma Valid.dryMergeDelta (hs : s.Valid) (hd : ∀ op ∈ d.ops, op.Recorded) :
    (s.dryMergeDelta d).Valid := by
  refine ⟨?_, fun _ h => absurd h List.not_mem_nil⟩
  have hfold := valid_foldl_replay (s.keys, s.values) hs.keys hd
  rw [← applyDelta_eq_foldl] at hfold
  exact hfold

lemma Valid.mergeDelta (hs : s.Valid) (hd : ∀ op ∈ d.ops, op.Recorded) : (s.mergeDelta d).Valid :=
  hs.merge (hs.dryMergeDelta hd)

end ORMap

/-! ## Values and keys -/

namespace ORMap

section Held

variable {K V Δ R : Type*} [DecidableEq K] [DecidableEq R]

/-- Values belong to keys of the key set. -/
def ValuesHeld (s : ORMap K V Δ R) : Prop :=
  ∀ key, (s.values.lookup key).isSome = true → s.keys.contains key = true

variable {s t : ORMap K V Δ R}

lemma ValuesHeld.insert (hs : s.ValuesHeld) (replica : R) (key : K) (value : V)
    (delta : Option (ORMapDelta K V Δ R)) :
    (⟨s.keys.resetDelta.add replica key, s.values.insert key value, delta⟩ :
      ORMap K V Δ R).ValuesHeld := by
  intro x hx
  refine ORSetCore.contains_add.mpr ?_
  rw [lookup_insert] at hx
  split_ifs at hx with h
  · exact .inl h
  · exact .inr (hs x hx)

lemma toORSetCore_remove {keys : ORSet K R} (h : keys.contains key = true) :
    (keys.resetDelta.remove replica key).toORSetCore = keys.toORSetCore.remove key := by
  have hreset : keys.resetDelta.contains key = true := h
  rw [ORSet.remove, if_pos hreset]
  rfl

lemma ValuesHeld.remove (hs : s.ValuesHeld) (h : s.remove replica key = some t) : t.ValuesHeld := by
  rcases remove_cases h with rfl | ⟨hcontains, rfl⟩
  · exact hs
  · intro x hx
    rw [lookup_erase] at hx
    split_ifs at hx with hne
    · cases hx
    rw [toORSetCore_remove hcontains, ORSetCore.contains, ORSetCore.remove, lookup_erase,
    if_neg hne]
    exact hs x hx

variable [DeltaReplicatedData V Δ]

lemma ValuesHeld.updated (hs : s.ValuesHeld) (replica : R) (key : K) (initial : V)
    (modify : V → V) : (s.updated replica key initial modify).ValuesHeld := by
  obtain ⟨-, value, op, -, -, heq⟩ := updated_eq s replica key initial modify
  rw [heq]
  exact hs.insert replica key value _

lemma valuesHeld_merge (s t : ORMap K V Δ R) : (s.merge t).ValuesHeld := by
  intro key hkey
  rw [lookup_merge] at hkey
  split_ifs at hkey with h
  · exact h
  · cases hkey

end Held

end ORMap

/-! ## Every call -/

section

variable {K V Δ R : Type*} [LinearOrder K] [DecidableEq R] [DeltaReplicatedData V Δ]
  {pool : MapPool K V Δ R} {call : MapCall K V R} {t : ORMap K V Δ R}

/-- What the calls keep, merging a delta apart. -/
structure MapPool.Kept (P : ORMap K V Δ R → Prop) : Prop where
  new : P .new
  put : ∀ {s}, P s → ∀ replica key value, P (s.put replica key value)
  updated : ∀ {s}, P s → ∀ replica key initial modify, P (s.updated replica key initial modify)
  remove : ∀ {s t replica key}, P s → s.remove replica key = some t → P t
  merge : ∀ {s t}, P s → P t → P (s.merge t)
  resetDelta : ∀ {s}, P s → P s.resetDelta

/-- A property that the calls keep holds of what a call returns, if it holds of every map of the pool
after a merge of the delta that the call merges. -/
lemma MapPool.Kept.result {P : ORMap K V Δ R → Prop} (hP : Kept P) (hpool : ∀ s ∈ pool, P s)
    (hdelta : ∀ i j more, call = .mergeDelta i j more → ∀ d, pool.mergedDelta j more = some d →
      ∀ s ∈ pool, P (s.mergeDelta d)) (h : pool.result call = some t) : P t := by
  have hget : ∀ {i : ℕ} {s : ORMap K V Δ R}, pool[i]? = some s → P s :=
    fun hi => hpool _ (List.mem_of_getElem? hi)
  cases call with
  | create =>
    cases h
    exact hP.new
  | put i replica key value =>
    obtain ⟨s, hi, rfl⟩ := map_eq_some_iff.mp h
    exact hP.put (hget hi) replica key value
  | updated i replica key initial modify =>
    obtain ⟨s, hi, rfl⟩ := map_eq_some_iff.mp h
    exact hP.updated (hget hi) replica key initial modify
  | remove i replica key =>
    obtain ⟨s, hi, hremove⟩ := bind_eq_some_iff.mp h
    exact hP.remove (hget hi) hremove
  | merge i j =>
    obtain ⟨s, hi, hmerge⟩ := bind_eq_some_iff.mp h
    obtain ⟨other, hj, rfl⟩ := map_eq_some_iff.mp hmerge
    exact hP.merge (hget hi) (hget hj)
  | mergeDelta i j more =>
    obtain ⟨s, hi, hmerge⟩ := bind_eq_some_iff.mp h
    obtain ⟨d, hd, rfl⟩ := map_eq_some_iff.mp hmerge
    exact hdelta i j more rfl d hd s (List.mem_of_getElem? hi)
  | resetDelta i =>
    obtain ⟨s, hi, rfl⟩ := map_eq_some_iff.mp h
    exact hP.resetDelta (hget hi)

lemma MapPool.kept_valid : Kept (ORMap.Valid (K := K) (V := V) (Δ := Δ) (R := R)) where
  new := ORMap.valid_new
  put hs replica key value := hs.put replica key value
  updated hs replica key initial modify := hs.updated replica key initial modify
  remove hs h := hs.remove h
  merge hs ht := hs.merge ht
  resetDelta hs := hs.resetDelta

lemma MapPool.kept_valuesHeld : Kept (ORMap.ValuesHeld (K := K) (V := V) (Δ := Δ) (R := R)) where
  new key hkey := by cases hkey
  put hs replica key value := hs.insert replica key value _
  updated hs replica key initial modify := hs.updated replica key initial modify
  remove hs h := hs.remove h
  merge _ _ := ORMap.valuesHeld_merge _ _
  resetDelta hs := hs

omit [DeltaReplicatedData V Δ] in
lemma MapPool.recorded_mergedDelta (hpool : ∀ s ∈ pool, s.Valid) {j : ℕ}
    (hd : pool.mergedDelta j more = some d) : ∀ op ∈ d.ops, op.Recorded := by
  intro op hop
  obtain ⟨other, hother, hop⟩ := MapPool.mem_ops_mergedDelta hd hop
  exact (hpool other hother).recorded op hop

lemma MapPool.valid_result (hpool : ∀ s ∈ pool, s.Valid) (h : pool.result call = some t) : t.Valid :=
  kept_valid.result hpool
    (fun _ _ _ _ _ hd s hs => (hpool s hs).mergeDelta (recorded_mergedDelta hpool hd)) h

lemma MapPool.valuesHeld_result (hpool : ∀ s ∈ pool, s.ValuesHeld) (h : pool.result call = some t)
    : t.ValuesHeld :=
  kept_valuesHeld.result hpool (fun _ _ _ _ _ _ s _ => ORMap.valuesHeld_merge s _) h

/-- In every run the maps are valid and hold values of their keys only. -/
lemma MapPool.valid_of_reach
    (h : (MapPool.machine K V Δ R).Reachable pool) : ∀ s ∈ pool, s.Valid ∧ s.ValuesHeld := by
  refine h.invariant (I := fun pool => ∀ s ∈ pool, s.Valid ∧ s.ValuesHeld) ?_ ?_
  · rintro pool rfl s hs
    cases hs
  · intro pool call next ih _ hstep
    obtain ⟨t, ht, rfl⟩ := map_eq_some_iff.mp hstep
    refine List.forall_mem_append.mpr ⟨ih, List.forall_mem_singleton.mpr ?_⟩
    exact ⟨valid_result (fun s hs => (ih s hs).1) ht, valuesHeld_result (fun s hs => (ih s hs).2) ht⟩

end

end Kairo.DistributedData
