import Kairo.DistributedData.Counters
import Kairo.DistributedData.ORMapRun

/-!
# Keys and values of observed-remove maps

A map is coherent when the keys with a value are the elements of its key set.  Merges restore
coherence, and the local operations and merged deltas keep it, as long as the operations of a delta
are in causal order.  A cleanup does not: it drops the keys that only the removed replica has added
and leaves their values.
-/

set_option linter.unusedSectionVars false

namespace Kairo.DistributedData

open Kairo.Lib RemovedNodePruning ORSetCore List Option FinMap ORMap Machine.Reach

/-! ## Causal order of operations -/

namespace MapOp

variable {K V Δ R : Type*}

/-- The part of an operation that is about the key set. -/
def keys : MapOp K V Δ R → ORSetDelta K R
  | put keys _ _ => keys
  | update keys _ => keys
  | remove keys => keys

variable [DecidableEq K] [DecidableEq R]

/-- The operation adds the key with the dot. -/
def Adds (op : MapOp K V Δ R) (key : K) (r : R) (n : ℕ) : Prop :=
  ∃ set, SetOp.add set ∈ op.keys.ops ∧ set.HasDot key r n

def Removes (op : MapOp K V Δ R) (removal : ORSetRemoveDelta K R) : Prop :=
  SetOp.remove removal ∈ op.keys.ops

variable {replica r : R} {version n : ℕ} {key x : K} {op : MapOp K V Δ R}
  {removal : ORSetRemoveDelta K R}

/-- Every removal has seen the earlier adds of its key. -/
def Causal (ops : List (MapOp K V Δ R)) : Prop :=
  ops.Pairwise fun earlier later => ∀ removal, later.Removes removal →
    ∀ r n, earlier.Adds removal.element r n → n ≤ removal.seen.versionAt r

lemma adds_addDelta (hop : op.keys = addDelta replica version key) :
    op.Adds x r n ↔ x = key ∧ version ≠ 0 ∧ r = replica ∧ n = version := by
  rw [Adds, hop, ← hasDot_single]
  constructor
  · rintro ⟨set, hset, hdot⟩
    obtain rfl := SetOp.add.inj (mem_singleton.mp hset)
    exact hdot
  · exact fun h => ⟨_, mem_singleton_self _, h⟩

lemma not_removes_addDelta (hop : op.keys = addDelta replica version key) :
    ¬ op.Removes removal := by
  rw [Removes, hop]
  intro h
  cases mem_singleton.mp h

end MapOp

/-! ## Merged deltas -/

namespace ORMap

section Backed

variable {K V Δ R : Type*} [DecidableEq K] [DecidableEq R]

/-- Every key of the key set has a value. -/
def KeysBacked (s : ORMap K V Δ R) : Prop :=
  ∀ key, s.keys.contains key = true → (s.values.lookup key).isSome = true

variable {s t : ORMap K V Δ R} [DeltaReplicatedData V Δ] {key : K} {op : MapOp K V Δ R}

lemma contains_or_of_merge {a b : ORSetCore K R} (h : (a.merge b).contains key = true) :
    a.contains key = true ∨ b.contains key = true := by
  obtain ⟨r, n, hdot⟩ := inhabited_merge a b key h
  rcases hasDot_or_of_merge hdot with ⟨dots, hd, -⟩ | ⟨dots, hd, -⟩
  · exact .inl (contains_iff.mpr ⟨dots, hd⟩)
  · exact .inr (contains_iff.mpr ⟨dots, hd⟩)

lemma isSome_lookup_merge (h : (s.merge t).keys.contains key = true) :
    ((s.merge t).values.lookup key).isSome = true ↔
      (s.values.lookup key).isSome = true ∨ (t.values.lookup key).isSome = true := by
  have hlookup := (lookup_merge s t key).trans (if_pos h)
  rw [hlookup]
  cases s.values.lookup key <;> cases t.values.lookup key <;> simp

lemma KeysBacked.merge (hs : s.KeysBacked) (ht : t.KeysBacked) : (s.merge t).KeysBacked := by
  intro key hkey
  rw [isSome_lookup_merge hkey]
  exact (contains_or_of_merge hkey).imp (hs key) (ht key)

/-- After some operations of a delta: a key that the map did not hold has dots of these operations
only, and it has a value. -/
structure Followed (s : ORMap K V Δ R) (done : List (MapOp K V Δ R))
    (acc : ORSet K R × FinMap K V) : Prop where
  dots : ∀ key r n, ¬ s.keys.contains key = true → acc.1.HasDot key r n → ∃ op ∈ done, op.Adds key r n
  backed : ∀ key, ¬ s.keys.contains key = true → acc.1.contains key = true →
    (acc.2.lookup key).isSome = true

variable {done : List (MapOp K V Δ R)} {acc : ORSet K R × FinMap K V} {replica : R}

lemma Followed.add (h : Followed s done acc) {version : ℕ}
    (hop : op.keys = addDelta replica version key) {values : FinMap K V}
    (hkey : (acc.1.mergeDelta (addDelta replica version key)).contains key = true →
      (values.lookup key).isSome = true)
    (hother : ∀ x, x ≠ key → values.lookup x = acc.2.lookup x) :
    Followed s (done ++ [op]) (acc.1.mergeDelta (addDelta replica version key), values) where
  dots x r n hx hdot := by
    rcases hasDot_or_of_mergeAddDelta hdot with hdot | hdot
    · obtain ⟨op', hmem, hadds⟩ := h.dots x r n hx hdot
      exact ⟨op', mem_append_left _ hmem, hadds⟩
    · exact ⟨op, by simp, _, by rw [hop]; exact mem_singleton_self _, hdot⟩
  backed x hx hcontains := by
    by_cases hne : x = key
    · subst hne
      exact hkey hcontains
    · rw [hother x hne]
      refine h.backed x hx ?_
      have hlookup := lookup_mergeAddDelta_single acc.1.toORSetCore x key replica version
      rw [if_neg hne] at hlookup
      exact (congrArg isSome hlookup).symm.trans hcontains

lemma Followed.remove (h : Followed s done acc) (hinhabited : acc.1.Inhabited)
    (hseen : ∀ earlier ∈ done, ∀ r n, earlier.Adds removal.element r n →
      n ≤ removal.seen.versionAt r) : Followed s (done ++ [op])
      (acc.1.mergeDelta (.remove removal), acc.2.erase removal.element) where
  dots x r n hx hdot := by
    obtain ⟨hdot, -⟩ := hasDot_mergeRemoveDelta.mp hdot
    obtain ⟨op', hmem, hadds⟩ := h.dots x r n hx hdot
    exact ⟨op', mem_append_left _ hmem, hadds⟩
  backed x hx hcontains := by
    have hinh : (acc.1.toORSetCore.mergeRemoveDelta removal).Inhabited :=
      inhabited_mergeRemoveDelta hinhabited
    obtain ⟨r, n, hdot⟩ := hinh x hcontains
    obtain ⟨⟨dots, hd, hn⟩, hunseen⟩ := hasDot_mergeRemoveDelta.mp hdot
    have hne : x ≠ removal.element := by
      intro he
      -- a dot that the removal has not seen would have to come from an earlier add
      obtain ⟨r', n', hdot', hlt⟩ := hunseen he
      obtain ⟨earlier, hmem, hadds⟩ := h.dots x r' n' hx hdot'
      rw [he] at hadds
      have hle := hseen earlier hmem r' n' hadds
      omega
    rw [lookup_erase, if_neg hne]
    exact h.backed x hx (contains_iff.mpr ⟨dots, hd⟩)

lemma lookup_updateValues_of_ne (keys : ORSet K R) (values : FinMap K V) {key x : K}
    (hx : x ≠ key) (valueDelta : Δ) :
    (updateValues keys values (Finmap.singleton key valueDelta)).lookup x = values.lookup x := by
  have hnone : (Finmap.singleton key valueDelta : FinMap K Δ).lookup x = none := by
    rw [FinMap.lookup_singleton, if_neg hx]
  rw [updateValues, lookup_tabulate_union fun h _ => by rw [hnone, h], hnone]

lemma isSome_lookup_updateValues {keys : ORSet K R} (values : FinMap K V)
    (hkey : keys.contains key = true) (valueDelta : Δ) :
    ((updateValues keys values (Finmap.singleton key valueDelta)).lookup key).isSome = true := by
  have hsome : (Finmap.singleton key valueDelta : FinMap K Δ).lookup key = some valueDelta := by
    rw [FinMap.lookup_singleton, if_pos rfl]
  rw [updateValues, lookup_tabulate_union fun _ h => (by cases hsome.symm.trans h), hsome]
  dsimp only
  rw [if_pos hkey]
  rfl

lemma Followed.replay (h : Followed s done acc) (hinhabited : acc.1.Inhabited) (hop : op.Recorded)
    (hcausal : ∀ earlier ∈ done, ∀ removal, op.Removes removal → ∀ r n,
      earlier.Adds removal.element r n → n ≤ removal.seen.versionAt r) :
    Followed s (done ++ [op]) (replay acc op) := by
  cases hop with
  | put replica version key value =>
    refine h.add rfl (fun _ => ?_) fun x hx => ?_
    · rw [Finmap.lookup_insert]
      rfl
    · rw [lookup_insert, if_neg hx]
  | update replica version key valueDelta =>
    exact h.add rfl (fun hkey => isSome_lookup_updateValues acc.2 hkey valueDelta)
      fun x hx => lookup_updateValues_of_ne _ acc.2 hx valueDelta
  | remove key seen replica version =>
    exact h.remove hinhabited fun earlier hmem => hcausal earlier hmem _ (mem_singleton_self _)

end Backed

/-! ## What every map keeps -/

section

variable {K V Δ R : Type*} [LinearOrder K] [DecidableEq R] [DeltaReplicatedData V Δ]
  {d : ORMapDelta K V Δ R}

lemma Followed.foldl {s : ORMap K V Δ R} {ops done : List (MapOp K V Δ R)}
    {acc : ORSet K R × FinMap K V} (h : Followed s done acc) (hvalid : acc.1.Valid)
    (hops : ∀ op ∈ ops, op.Recorded) (hcausal : MapOp.Causal (done ++ ops)) :
    Followed s (done ++ ops) (ops.foldl ORMap.replay acc) := by
  induction ops generalizing done acc with
  | nil =>
    rw [append_nil]
    exact h
  | cons op ops ih =>
    have hop := hops op mem_cons_self
    have hsplit : done ++ op :: ops = (done ++ [op]) ++ ops := by simp
    rw [hsplit] at hcausal ⊢
    have hbefore := (pairwise_append.mp (pairwise_append.mp hcausal).1).2.2
    refine ih (h.replay hvalid.wellFormed.inhabited hop ?_) (valid_replay hvalid hop)
      (fun op' h' => hops op' (mem_cons_of_mem _ h')) hcausal
    exact fun earlier hmem => hbefore earlier hmem op (mem_singleton_self op)

lemma KeysBacked.mergeDelta {s : ORMap K V Δ R} (hs : s.KeysBacked) (hvalid : s.Valid)
    (hd : ∀ op ∈ d.ops, op.Recorded) (hcausal : MapOp.Causal d.ops) :
    (s.mergeDelta d).KeysBacked := by
  have hstart : Followed s [] (s.keys, s.values) := by
    refine ⟨fun key r n hkey hdot => ?_, fun key hkey hcontains => absurd hcontains hkey⟩
    obtain ⟨dots, hdots, -⟩ := hdot
    exact absurd (contains_iff.mpr ⟨dots, hdots⟩) hkey
  have hend := hstart.foldl hvalid.keys hd hcausal
  rw [← applyDelta_eq_foldl] at hend
  intro key hkey
  refine (isSome_lookup_merge hkey).mpr ?_
  by_cases hold : s.keys.contains key = true
  · exact .inl (hs key hold)
  · exact .inr (hend.backed key hold ((contains_or_of_merge hkey).resolve_left hold))

/-- What holds for every map, whatever the cleanups do: the key set is valid, its keys have values, and
the pending delta is causal with adds that the key set covers. -/
structure Sound (s : ORMap K V Δ R) : Prop where
  valid : s.Valid
  backed : s.KeysBacked
  causal : MapOp.Causal (mapDeltaOps s.delta)
  covered : ∀ op ∈ mapDeltaOps s.delta, ∀ key r n, op.Adds key r n →
    n ≤ s.keys.versionVector.versionAt r

variable {s t : ORMap K V Δ R} {key : K}

omit [DeltaReplicatedData V Δ] in
lemma sound_of_delta_none (hvalid : s.Valid) (hbacked : s.KeysBacked) (hdelta : s.delta = none) :
    s.Sound where
  valid := hvalid
  backed := hbacked
  causal := by
    rw [hdelta]
    exact .nil
  covered op hop := by
    rw [hdelta] at hop
    cases hop

section

variable (hs : s.Sound)

include hs

lemma Sound.add (value : V) {next : ORMapDelta K V Δ R} (hnext : next.ops = [op])
    (hop : op.keys = addDelta replica ((s.keys.add replica key).versionVector.versionAt replica) key)
    (hvalid : (⟨s.keys.resetDelta.add replica key, s.values.insert key value,
      some (.mergeOptional s.delta next)⟩ : ORMap K V Δ R).Valid) :
    (⟨s.keys.resetDelta.add replica key, s.values.insert key value,
      some (.mergeOptional s.delta next)⟩ : ORMap K V Δ R).Sound where
  valid := hvalid
  backed x hx := by
    rw [lookup_insert]
    split_ifs with hne
    · rfl
    · exact hs.backed x ((contains_add.mp hx).resolve_left hne)
  causal := by
    rw [mapDeltaOps_mergeOptional, hnext]
    refine pairwise_append.mpr ⟨hs.causal, pairwise_singleton _ _, ?_⟩
    intro earlier _ later hlater removal hremoves
    obtain rfl := mem_singleton.mp hlater
    exact absurd hremoves (MapOp.not_removes_addDelta hop)
  covered op' hop' x r n hadds := by
    have hvv : (s.keys.resetDelta.add replica key).versionVector.versionAt r =
        if r = replica then min (s.keys.versionVector.versionAt replica + 1) Cluster.u64Max
        else s.keys.versionVector.versionAt r :=
      s.keys.toORSetCore.versionAt_add replica key r
    have hbound := hs.valid.keys.wellFormed.bounded r
    rw [mapDeltaOps_mergeOptional, hnext, mem_append] at hop'
    rcases hop' with hop' | hop'
    · have hle := hs.covered op' hop' x r n hadds
      rw [hvv]
      split_ifs with hr
      · subst hr
        omega
      · exact hle
    · obtain rfl := mem_singleton.mp hop'
      obtain ⟨-, -, rfl, rfl⟩ := (MapOp.adds_addDelta hop).mp hadds
      exact le_rfl

lemma Sound.put (replica : R) (key : K) (value : V) : (s.put replica key value).Sound :=
  hs.add value rfl rfl (hs.valid.put replica key value)

lemma Sound.updated (replica : R) (key : K) (initial : V) (modify : V → V) :
    (s.updated replica key initial modify).Sound := by
  have hvalid := hs.valid.updated replica key initial modify
  obtain ⟨keyDelta, value, op, hdelta, hop, heq⟩ := updated_eq s replica key initial modify
  rw [delta_add] at hdelta
  cases hdelta
  rw [heq] at hvalid ⊢
  rcases hop with rfl | ⟨valueDelta, rfl⟩ <;> exact hs.add value rfl rfl hvalid

lemma Sound.remove (h : s.remove replica key = some t) : t.Sound := by
  have hvalid := hs.valid.remove h
  rcases remove_cases h with rfl | ⟨hcontains, rfl⟩
  · exact hs
  have hkeys : (s.keys.resetDelta.remove replica key).toORSetCore =
      s.keys.toORSetCore.remove key := toORSetCore_remove hcontains
  refine ⟨hvalid, fun x hx => ?_, ?_, fun op hop x r n hadds => ?_⟩
  · rw [hkeys, ORSetCore.contains, ORSetCore.remove, lookup_erase] at hx
    rw [lookup_erase]
    split_ifs at hx ⊢ with hne
    · cases hx
    · exact hs.backed x hx
  · rw [mapDeltaOps_mergeOptional]
    refine pairwise_append.mpr ⟨hs.causal, pairwise_singleton _ _, ?_⟩
    intro earlier hearlier later hlater removal hremoves r n hadds
    obtain rfl := mem_singleton.mp hlater
    obtain rfl := SetOp.remove.inj (mem_singleton.mp hremoves)
    exact hs.covered earlier hearlier key r n hadds
  · rw [hkeys]
    rw [mapDeltaOps_mergeOptional, mem_append] at hop
    rcases hop with hop | hop
    · exact hs.covered op hop x r n hadds
    · obtain rfl := mem_singleton.mp hop
      obtain ⟨set, hset, -⟩ := hadds
      cases mem_singleton.mp hset

lemma Sound.merge (ht : t.Sound) : (s.merge t).Sound :=
  sound_of_delta_none (hs.valid.merge ht.valid) (hs.backed.merge ht.backed) rfl

lemma Sound.mergeDelta (hd : ∀ op ∈ d.ops, op.Recorded) (hcausal : MapOp.Causal d.ops) :
    (s.mergeDelta d).Sound :=
  sound_of_delta_none (hs.valid.mergeDelta hd) (hs.backed.mergeDelta hs.valid hd hcausal) rfl

lemma Sound.resetDelta : s.resetDelta.Sound :=
  sound_of_delta_none hs.valid.resetDelta hs.backed rfl

end

lemma hasDot_mergeDelta (hd : ∀ op ∈ d.ops, op.Recorded) {r : R} {n : ℕ}
    (h : (s.mergeDelta d).keys.HasDot key r n) :
    s.keys.HasDot key r n ∨ ∃ op ∈ d.ops, op.Adds key r n := by
  have hfold : ∀ (ops : List (MapOp K V Δ R)) (acc : ORSet K R × FinMap K V),
      (∀ op ∈ ops, op.Recorded) → (ops.foldl replay acc).1.HasDot key r n →
        acc.1.HasDot key r n ∨ ∃ op ∈ ops, op.Adds key r n := by
    intro ops
    induction ops with
    | nil => exact fun acc _ hdot => .inl hdot
    | cons op ops ih =>
      intro acc hops hdot
      rcases ih _ (fun op' h' => hops op' (mem_cons_of_mem _ h')) hdot with hdot | ⟨op', h', hadds⟩
      · have hstep : acc.1.HasDot key r n ∨ op.Adds key r n := by
          cases hops op mem_cons_self with
          | put replica version x value | update replica version x valueDelta =>
            refine (hasDot_or_of_mergeAddDelta hdot).imp id fun hdot => ?_
            exact ⟨_, mem_singleton_self _, hdot⟩
          | remove x seen replica version => exact .inl (hasDot_mergeRemoveDelta.mp hdot).1
        exact hstep.imp id fun hadds => ⟨op, mem_cons_self, hadds⟩
      · exact .inr ⟨op', mem_cons_of_mem _ h', hadds⟩
  rcases hasDot_or_of_merge h with hdot | hdot
  · exact .inl hdot
  · refine hfold d.ops (s.keys, s.values) hd ?_
    rw [← applyDelta_eq_foldl]
    exact hdot

end

/-! ## Pruning and cleanup -/

section

variable {K V Δ R : Type*} [LinearOrder K] [LinearOrder R] [RemovedNodePruning V R]
  {s t : ORMap K V Δ R} {removed collapseInto : R}

lemma prune_eq_ok (h : s.prune removed collapseInto = .ok t) :
    t.keys = s.keys.prune removed collapseInto ∧ t.delta = none ∧
      ∀ key, (t.values.lookup key).isSome = (s.values.lookup key).isSome := by
  unfold prune at h
  dsimp only at h
  split at h
  · cases h
  · rename_i hnone
    cases h
    refine ⟨rfl, rfl, fun key => ?_⟩
    rw [lookup_tabulate_keys fun h => by rw [h]; rfl]
    rw [findSome?_eq_none_iff] at hnone
    cases hv : s.values.lookup key with
    | none => rfl
    | some v =>
      have hmem : key ∈ s.values.keys := by
        rw [Finmap.mem_keys, mem_iff_isSome, hv]
        rfl
      have hok := hnone key (mem_ordered.mpr hmem)
      rw [hv, map_some, bind_some] at hok
      rw [map_some, bind_some]
      cases hp : pruneValue v removed collapseInto with
      | error e =>
        rw [hp] at hok
        cases hok
      | ok w => rfl

lemma Sound.prune (hs : s.Sound) (h : s.prune removed collapseInto = .ok t) : t.Sound := by
  obtain ⟨hkeys, hdelta, hvalues⟩ := prune_eq_ok h
  refine sound_of_delta_none ⟨?_, ?_⟩ (fun key hkey => ?_) hdelta
  · rw [hkeys]
    exact hs.valid.keys.prune removed collapseInto
  · rw [hdelta]
    exact fun _ h => absurd h not_mem_nil
  · rw [hkeys] at hkey
    rw [hvalues]
    exact hs.backed key (ORSet.contains_prune.mp hkey)

lemma ValuesHeld.prune (hs : s.ValuesHeld) (h : s.prune removed collapseInto = .ok t) :
    t.ValuesHeld := by
  obtain ⟨hkeys, -, hvalues⟩ := prune_eq_ok h
  intro key hkey
  rw [hvalues] at hkey
  rw [hkeys]
  exact ORSet.contains_prune.mpr (hs key hkey)

lemma isSome_lookup_pruningCleanup (s : ORMap K V Δ R) (removed : R) (key : K) :
    ((s.pruningCleanup removed).values.lookup key).isSome = (s.values.lookup key).isSome := by
  rw [pruningCleanup, lookup_tabulate_keys fun h => by rw [h]; rfl]
  exact isSome_map

lemma contains_pruningCleanup_iff {keys : ORSet K R} :
    (keys.pruningCleanup removed).contains key = true ↔
      ∃ r n, r ≠ removed ∧ keys.HasDot key r n := by
  constructor
  · intro h
    obtain ⟨r, n, hdot⟩ := inhabited_pruningCleanup key h
    exact ⟨r, n, hasDot_pruningCleanup.mp hdot⟩
  · rintro ⟨r, n, hdot⟩
    obtain ⟨dots, hd, -⟩ := hasDot_pruningCleanup.mpr hdot
    exact contains_iff.mpr ⟨dots, hd⟩

/-- A cleanup drops keys only, so the keys that stay have values. -/
lemma Sound.pruningCleanup (hs : s.Sound) (removed : R) : (s.pruningCleanup removed).Sound := by
  refine sound_of_delta_none ⟨?_, fun _ h => absurd h not_mem_nil⟩ (fun key hkey => ?_) rfl
  · exact hs.valid.keys.perform (.pruningCleanup removed) trivial trivial
  · obtain ⟨r, n, -, dots, hd, -⟩ := contains_pruningCleanup_iff.mp hkey
    rw [isSome_lookup_pruningCleanup]
    exact hs.backed key (contains_iff.mpr ⟨dots, hd⟩)

/-- Values keep their keys where every key has a dot of another replica. -/
lemma ValuesHeld.pruningCleanup (hs : s.ValuesHeld)
    (hspared : ∀ key, s.keys.contains key = true → ∃ r n, r ≠ removed ∧ s.keys.HasDot key r n) :
    (s.pruningCleanup removed).ValuesHeld := by
  intro key hkey
  rw [isSome_lookup_pruningCleanup] at hkey
  exact contains_pruningCleanup_iff.mpr (hspared key (hs key hkey))

lemma Sound.cleanupReplica (hs : s.Sound) (removed : R) : (cleanupReplica s removed).Sound := by
  unfold Kairo.DistributedData.cleanupReplica
  split_ifs
  · exact hs.pruningCleanup removed
  · exact hs

lemma Sound.cleanupPerformed (hs : s.Sound) (table : PruningTable R) :
    (cleanupPerformed s table).Sound := by
  have hfold : ∀ (rs : List R) (s : ORMap K V Δ R), s.Sound →
      (rs.foldl Kairo.DistributedData.cleanupReplica s).Sound := by
    intro rs
    induction rs with
    | nil => exact fun s hs => hs
    | cons r rs ih => exact fun s hs => ih _ (hs.cleanupReplica r)
  exact hfold _ s hs

lemma ValuesHeld.cleanupPerformed (hs : s.ValuesHeld) (hsound : s.Sound) {table : PruningTable R}
    (hnone : ∀ r ∈ table.performed, ∀ key n, ¬ s.keys.HasDot key r n) :
    (cleanupPerformed s table).ValuesHeld := by
  have hfold : ∀ (rs : List R) (s : ORMap K V Δ R), s.ValuesHeld → s.Sound →
      (∀ r ∈ rs, ∀ key n, ¬ s.keys.HasDot key r n) →
        (rs.foldl Kairo.DistributedData.cleanupReplica s).ValuesHeld := by
    intro rs
    induction rs with
    | nil => exact fun s hs _ _ => hs
    | cons r rs ih =>
      intro s hs hsound hnone
      have hfree := hnone r mem_cons_self
      refine ih _ ?_ (hsound.cleanupReplica r) fun r' hr' key n hdot => ?_
      · unfold Kairo.DistributedData.cleanupReplica
        split_ifs
        · refine hs.pruningCleanup fun key hkey => ?_
          obtain ⟨r', n, hdot⟩ := hsound.valid.keys.wellFormed.inhabited key hkey
          refine ⟨r', n, ?_, hdot⟩
          rintro rfl
          exact hfree key n hdot
        · exact hs
      · refine hnone r' (mem_cons_of_mem _ hr') key n ?_
        unfold Kairo.DistributedData.cleanupReplica at hdot
        split_ifs at hdot
        · exact (hasDot_pruningCleanup.mp hdot).2
        · exact hdot
  exact hfold _ s hs hsound fun r hr => hnone r (mem_ordered.mp hr)

end

end ORMap

/-! ## Runs with pruning -/

/-- The operations of maps and of the envelopes around them; the envelopes' tables of markers are any. -/
inductive MapStep (K V R : Type*)
  | call (call : MapCall K V R)
  | prune (i : ℕ) (removed collapseInto : R)
  | pruningCleanup (i : ℕ) (removed : R)
  | mergePruned (i j : ℕ) (left right : PruningTable R) (now : ℕ)
  | mergeDeltaPruned (i j : ℕ) (more : List ℕ) (left right : PruningTable R) (now : ℕ)

section Runs

variable {K V Δ R : Type*} [LinearOrder K] [LinearOrder R] [DeltaReplicatedData V Δ]
  [RemovedNodePruning V R]

namespace MapPool

def prunedResult (pool : MapPool K V Δ R) : MapStep K V R → Option (ORMap K V Δ R)
  | .call call => pool.result call
  | .prune i removed collapseInto =>
    pool[i]?.bind fun s => (s.prune removed collapseInto).toOption
  | .pruningCleanup i removed => pool[i]?.map (·.pruningCleanup removed)
  | .mergePruned i j left right now => pool[i]?.bind fun s => pool[j]?.map fun t =>
    ((⟨s, left⟩ : DataEnvelope _ R).mergePruned ⟨t, right⟩ now).data
  | .mergeDeltaPruned i j more left right now => pool[i]?.bind fun s =>
    (pool.mergedDelta j more).map fun d =>
      ((⟨s, left⟩ : DataEnvelope _ R).mergeDeltaPruned d right now).data

def pruningMachine (K V Δ R : Type*) [LinearOrder K] [LinearOrder R] [DeltaReplicatedData V Δ]
    [RemovedNodePruning V R] : Machine (MapPool K V Δ R) (MapStep K V R) where
  init pool := pool = []
  step pool step := (pool.prunedResult step).map (pool ++ [·])

/-- Merged deltas are causal; a cleanup leaves every key a dot of another replica; and with a merged
delta only replicas are cleaned that have no dot left in the keys of the map and of the delta. -/
def Spared (pool : MapPool K V Δ R) : MapStep K V R → Prop
  | .call (.mergeDelta _ j more) => ∀ d, pool.mergedDelta j more = some d → MapOp.Causal d.ops
  | .pruningCleanup i removed => ∀ s, pool[i]? = some s → ∀ key, s.keys.contains key = true →
    ∃ r n, r ≠ removed ∧ s.keys.HasDot key r n
  | .mergeDeltaPruned i j more left right now => ∀ s d, pool[i]? = some s →
    pool.mergedDelta j more = some d → MapOp.Causal d.ops ∧
      ∀ r ∈ (left.mergeWithoutObsolete right now).performed, ∀ key n,
        ¬ s.keys.HasDot key r n ∧ ∀ op ∈ d.ops, ¬ op.Adds key r n
  | _ => True

variable {pool : MapPool K V Δ R} {t : ORMap K V Δ R}

lemma kept_sound : Kept (ORMap.Sound (K := K) (V := V) (Δ := Δ) (R := R)) where
  new := sound_of_delta_none valid_new (fun key hkey => by cases hkey) rfl
  put hs replica key value := hs.put replica key value
  updated hs replica key initial modify := hs.updated replica key initial modify
  remove hs h := hs.remove h
  merge hs ht := hs.merge ht
  resetDelta hs := hs.resetDelta

lemma sound_result (hpool : ∀ s ∈ pool, s.Sound) {call : MapCall K V R}
    (hok : pool.Spared (.call call)) (h : pool.result call = some t) : t.Sound := by
  refine kept_sound.result hpool ?_ h
  rintro i j more rfl d hd s hs
  exact (hpool s hs).mergeDelta (recorded_mergedDelta (fun s hs => (hpool s hs).valid) hd) (hok d hd)

lemma sound_prunedResult (hpool : ∀ s ∈ pool, s.Sound ∧ s.ValuesHeld) {step : MapStep K V R}
    (hok : pool.Spared step) (h : pool.prunedResult step = some t) : t.Sound ∧ t.ValuesHeld := by
  have hget : ∀ {i : ℕ} {s : ORMap K V Δ R}, pool[i]? = some s → s.Sound ∧ s.ValuesHeld :=
    fun hi => hpool _ (mem_of_getElem? hi)
  cases step with
  | call call =>
    exact ⟨sound_result (fun s hs => (hpool s hs).1) hok h,
      valuesHeld_result (fun s hs => (hpool s hs).2) h⟩
  | prune i removed collapseInto =>
    obtain ⟨s, hi, hprune⟩ := bind_eq_some_iff.mp h
    obtain ⟨hsound, hheld⟩ := hget hi
    have hok' : s.prune removed collapseInto = .ok t := by
      cases hp : s.prune removed collapseInto with
      | error e => rw [hp] at hprune; cases hprune
      | ok w => rw [hp] at hprune; cases hprune; rfl
    exact ⟨hsound.prune hok', hheld.prune hok'⟩
  | pruningCleanup i removed =>
    obtain ⟨s, hi, rfl⟩ := map_eq_some_iff.mp h
    obtain ⟨hsound, hheld⟩ := hget hi
    exact ⟨hsound.pruningCleanup removed, hheld.pruningCleanup (hok s hi)⟩
  | mergePruned i j left right now =>
    obtain ⟨s, hi, hmerge⟩ := bind_eq_some_iff.mp h
    obtain ⟨other, hj, rfl⟩ := map_eq_some_iff.mp hmerge
    exact ⟨((hget hi).1.cleanupPerformed _).merge ((hget hj).1.cleanupPerformed _),
      valuesHeld_merge _ _⟩
  | mergeDeltaPruned i j more left right now =>
    obtain ⟨s, hi, hmerge⟩ := bind_eq_some_iff.mp h
    obtain ⟨d, hd, rfl⟩ := map_eq_some_iff.mp hmerge
    obtain ⟨hcausal, hfree⟩ := hok s d hi hd
    have hrecorded := recorded_mergedDelta (fun s hs => (hpool s hs).1.valid) hd
    have hsound := (hget hi).1.mergeDelta hrecorded hcausal
    have hheld : (s.mergeDelta d).ValuesHeld := valuesHeld_merge _ _
    refine ⟨hsound.cleanupPerformed _, hheld.cleanupPerformed hsound fun r hr key n hdot => ?_⟩
    obtain ⟨hs, hadds⟩ := hfree r hr key n
    rcases hasDot_mergeDelta hrecorded hdot with hdot | ⟨op, hop, hdot⟩
    · exact hs hdot
    · exact hadds op hop hdot

end MapPool

namespace ORMap

/-- The keys that carry a value are the elements of the key set. -/
def Coherent (s : ORMap K V Δ R) : Prop := s.values.keys = s.keys.elements.keys

instance (s : ORMap K V Δ R) : Decidable s.Coherent :=
  inferInstanceAs (Decidable (s.values.keys = s.keys.elements.keys))

lemma coherent_iff {s : ORMap K V Δ R} : s.Coherent ↔ s.ValuesHeld ∧ s.KeysBacked := by
  have hmem : ∀ key, (key ∈ s.values.keys ↔ key ∈ s.keys.elements.keys) ↔
      ((s.values.lookup key).isSome = true ↔ s.keys.contains key = true) := by
    intro key
    rw [Finmap.mem_keys, Finmap.mem_keys, mem_iff_isSome, mem_iff_isSome]
    rfl
  rw [Coherent, Finset.ext_iff]
  constructor
  · exact fun h => ⟨fun key => ((hmem key).mp (h key)).mp, fun key => ((hmem key).mp (h key)).mpr⟩
  · exact fun h key => (hmem key).mpr ⟨h.1 key, h.2 key⟩

/-- **In every run that merges causal deltas and whose cleanups leave every key a dot, every map is
coherent.** -/
theorem coherent_of_spared {pool : MapPool K V Δ R}
    (h : (MapPool.pruningMachine K V Δ R).Reach MapPool.Spared pool) : ∀ s ∈ pool, s.Coherent := by
  have hinv : ∀ s ∈ pool, s.Sound ∧ s.ValuesHeld := by
    refine h.invariant (I := fun pool => ∀ s ∈ pool, s.Sound ∧ s.ValuesHeld) ?_ ?_
    · rintro pool rfl s hs
      cases hs
    · intro pool step next ih hok hstep
      obtain ⟨t, ht, rfl⟩ := map_eq_some_iff.mp hstep
      exact forall_mem_append.mpr ⟨ih, forall_mem_singleton.mpr (MapPool.sound_prunedResult ih hok ht)⟩
  intro s hs
  exact coherent_iff.mpr ⟨(hinv s hs).2, (hinv s hs).1.backed⟩

end ORMap

end Runs

/-! ## A value whose key has been cleaned away -/

namespace CleanedKey

abbrev Map := ORMap ℕ (GCounter ℕ) (GCounter ℕ) ℕ

/-- The pruning of replica zero has been performed. -/
def performed : PruningTable ℕ := ⟨Finmap.singleton 0 (.performed ⟨100⟩)⟩

/-- A delta of the other replica brings the marker to a map that holds a key of the removed one. -/
def steps : List (MapStep ℕ (GCounter ℕ) ℕ) :=
  [.call .create, .call (.put 0 0 7 .new), .call (.put 0 1 8 .new),
    .mergeDeltaPruned 1 2 [] .new performed 50]

/-- The key with a value is not in the key set, and removing it panics. -/
theorem value_without_key :
    ∃ pool : MapPool ℕ (GCounter ℕ) (GCounter ℕ) ℕ,
      (MapPool.pruningMachine ℕ (GCounter ℕ) (GCounter ℕ) ℕ).Reachable pool ∧
      ∃ s ∈ pool, ¬ s.Coherent ∧ (s.values.lookup 7).isSome = true ∧ s.keys.contains 7 = false ∧
        (s.remove 1 7).isNone = true :=
  exists_of_exec steps rfl (by decide +kernel)

def survivor : Map := ORMap.new.put 1 8 .new

lemma replica_of_hasDot {key : ℕ} {r : ℕ} {n : ℕ} (h : survivor.keys.HasDot key r n) :
    r = 1 := by
  have h' := hasDot_add_iff.mp h
  split_ifs at h'
  · exact h'.1
  · obtain ⟨dots, hd, -⟩ := h'
    cases hd

/-- The surviving replica's keys stay when the other replica is cleaned. -/
theorem coherent_survivor :
    ∃ pool : MapPool ℕ (GCounter ℕ) (GCounter ℕ) ℕ,
      (MapPool.pruningMachine ℕ (GCounter ℕ) (GCounter ℕ) ℕ).Reach
        MapPool.Spared pool ∧
      survivor.pruningCleanup 0 ∈ pool ∧ ORMap.new.mergeDelta (.put (addDelta 1 1 8) 8 .new) ∈ pool ∧
      ∀ s ∈ pool, s.Coherent := by
  have h1 : (MapPool.pruningMachine ℕ (GCounter ℕ) (GCounter ℕ) ℕ).Reach
      MapPool.Spared [.new, survivor] :=
    .step (.step (.init rfl) (i := .call .create) trivial rfl) (i := .call (.put 0 1 8 .new))
    trivial rfl
  have h2 := step h1 (i := .call (.mergeDelta 0 1 []))
    (t := [.new, survivor, new.mergeDelta (.put (addDelta 1 1 8) 8 .new)]) ?_ rfl
  · have h3 := step h2 (i := .pruningCleanup 1 0) ?_ rfl
    · exact ⟨_, h3, by simp, by simp, coherent_of_spared h3⟩
    · intro s hs key hkey
      cases hs
      have hvalid := (valid_new (V := GCounter ℕ) (Δ := GCounter ℕ)).put
        (1 : ℕ) 8 .new
      obtain ⟨r, n, hdot⟩ := hvalid.keys.wellFormed.inhabited key hkey
      refine ⟨r, n, ?_, hdot⟩
      rw [replica_of_hasDot hdot]
      decide
  · intro d hd
    cases hd
    exact pairwise_singleton _ _

end CleanedKey

end Kairo.DistributedData
