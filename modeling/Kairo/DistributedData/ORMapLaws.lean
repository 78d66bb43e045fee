import Kairo.DistributedData.ORMapRun
import Kairo.DistributedData.MergeOrder

/-!
# The merge of observed-remove maps

The merge of maps is commutative and idempotent when the merge of their values is.  It is not
associative: a merge that drops a key forgets its value, and a later merge brings the key back with
the value of the third map only, while the other grouping never drops the key.  The two groupings
agree exactly when the values that are forgotten are below the value that stays.
-/

namespace Kairo.DistributedData

open Kairo.Lib DeltaReplicatedData FinMap Option List MapPool

/-! ## Values -/

section

variable {V Δ : Type*} [DeltaReplicatedData V Δ]

/-- The merge of the good values is a join.  A merge with itself settles a value: it changes nothing,
or drops the pending delta. -/
structure JoinLaws (Good : V → Prop) (settle : V → V) : Prop where
  good_merge (a b : V) : Good a → Good b → Good (merge a b)
  comm (a b : V) : Good a → Good b → merge a b = merge b a
  assoc (a b c : V) : Good a → Good b → Good c → merge (merge a b) c = merge a (merge b c)
  self (a : V) : Good a → merge a a = settle a
  merge_settle (a b : V) : Good a → merge (settle a) b = merge a b

lemma JoinLaws.of_idempotent (hcomm : ∀ a b : V, merge a b = merge b a)
    (hassoc : ∀ a b c : V, merge (merge a b) c = merge a (merge b c))
    (hself : ∀ a : V, merge a a = a) : JoinLaws (fun _ : V => True) id where
  good_merge _ _ _ _ := trivial
  comm a b _ _ := hcomm a b
  assoc a b c _ _ _ := hassoc a b c
  self a _ := hself a
  merge_settle _ _ _ := rfl

lemma MergeLaws.joinLaws {Good : V → Prop} (laws : MergeLaws Good) :
    JoinLaws Good (resetDelta : V → V) where
  good_merge := laws.good_merge
  comm := laws.comm
  assoc := laws.assoc
  self := laws.self
  merge_settle a b _ := laws.merge_resetDelta a b

/-- The values of one key, where a map may have none. -/
def joinValues (x y : Option V) : Option V := Option.merge merge x y

/-- Joining `x` brings nothing to `y`. -/
def ValueBelow (x y : Option V) : Prop := joinValues x y = y

@[simp] lemma joinValues_none_left (x : Option V) : joinValues none x = x := by
  cases x <;> rfl

@[simp] lemma joinValues_none_right (x : Option V) : joinValues x none = x := by
  cases x <;> rfl

namespace JoinLaws

variable {Good : V → Prop} {settle : V → V} (laws : JoinLaws Good settle) {x y z : Option V}

include laws

lemma joinValues_comm (hx : ∀ a ∈ x, Good a) (hy : ∀ a ∈ y, Good a) :
    joinValues x y = joinValues y x := by
  cases x with
  | none => simp
  | some a =>
    cases y with
    | none => simp
    | some b => exact congrArg some (laws.comm a b (hx a rfl) (hy b rfl))

lemma joinValues_assoc (hx : ∀ a ∈ x, Good a) (hy : ∀ a ∈ y, Good a) (hz : ∀ a ∈ z, Good a) :
    joinValues (joinValues x y) z = joinValues x (joinValues y z) := by
  cases x with
  | none => simp
  | some a =>
    cases y with
    | none => simp
    | some b =>
      cases z with
      | none => simp
      | some c => exact congrArg some (laws.assoc a b c (hx a rfl) (hy b rfl) (hz c rfl))

lemma joinValues_self (hx : ∀ a ∈ x, Good a) : joinValues x x = x.map settle := by
  cases x with
  | none => rfl
  | some a => exact congrArg some (laws.self a (hx a rfl))

lemma merge_merge_self {a b : V} (ha : Good a) (hb : Good b) :
    merge a (merge a b) = merge a b := by
  rw [← laws.assoc a a b ha ha hb, laws.self a ha, laws.merge_settle a b ha]

/-- Two values that bring nothing to a third one bring nothing one by one. -/
lemma joinValues_eq_iff (hx : ∀ a ∈ x, Good a) (hy : ∀ a ∈ y, Good a) (hz : ∀ a ∈ z, Good a) :
    joinValues x (joinValues y z) = z ↔ ValueBelow x z ∧ ValueBelow y z := by
  constructor
  · intro h
    cases x with
    | none =>
      rw [joinValues_none_left] at h
      exact ⟨joinValues_none_left z, h⟩
    | some a =>
      have ha := hx a rfl
      cases z with
      | none => cases y <;> cases h
      | some c =>
        have hc := hz c rfl
        cases y with
        | none => exact ⟨h, joinValues_none_left _⟩
        | some b =>
          have hb := hy b rfl
          have habc : merge a (merge b c) = c := some.inj h
          have hbc := laws.good_merge b c hb hc
          have hleft : merge a c = c :=
            calc merge a c = merge a (merge a (merge b c)) := by rw [habc]
              _ = merge a (merge b c) := laws.merge_merge_self ha hbc
              _ = c := habc
          have hright : merge b c = c :=
            calc merge b c = merge b (merge a (merge b c)) := by rw [habc]
              _ = merge (merge b a) (merge b c) := (laws.assoc b a _ hb ha hbc).symm
              _ = merge (merge a b) (merge b c) := by rw [laws.comm b a hb ha]
              _ = merge a (merge b (merge b c)) := laws.assoc a b _ ha hb hbc
              _ = merge a (merge b c) := by rw [laws.merge_merge_self hb hc]
              _ = c := habc
          exact ⟨congrArg some hleft, congrArg some hright⟩
  · rintro ⟨hxz, hyz⟩
    rw [hyz, hxz]

end JoinLaws

end

/-! ## Keys that survive -/

section

variable {K R : Type*} [DecidableEq K] [DecidableEq R]

namespace ORSetCore

/-- A merge with the set does not drop the dot: the set holds it or has not seen it. -/
def Spares (s : ORSetCore K R) (x : K) (r : R) (n : ℕ) : Prop :=
  s.HasDot x r n ∨ s.versionVector.versionAt r < n

/-- Some set holds a dot of the element that every set spares. -/
def Survives (sets : List (ORSetCore K R)) (x : K) : Prop :=
  ∃ r n, (∀ s ∈ sets, s.Spares x r n) ∧ ∃ s ∈ sets, s.HasDot x r n

variable {s t u : ORSetCore K R} {x : K}

lemma hasDot_merge_iff_spares (hs : s.Covered) (ht : t.Covered) (hs0 : ∀ x r, ¬ s.HasDot x r 0)
    {r : R} {n : ℕ} :
    (s.merge t).HasDot x r n ↔
      s.Spares x r n ∧ t.Spares x r n ∧ (s.HasDot x r n ∨ t.HasDot x r n) := by
  rw [hasDot_merge_iff hs ht hs0]
  unfold Spares
  tauto

lemma spares_merge (hs : s.Covered) (ht : t.Covered) (hs0 : ∀ x r, ¬ s.HasDot x r 0)
    {r : R} {n : ℕ} : (s.merge t).Spares x r n ↔ s.Spares x r n ∧ t.Spares x r n := by
  have hdot := hasDot_merge_iff_spares hs ht hs0 (x := x) (r := r) (n := n)
  have hvv := versionAt_merge s t r
  unfold Spares at *
  rw [hvv, max_lt_iff, hdot]
  tauto

lemma contains_merge_iff (hs : s.Covered) (ht : t.Covered) (hs0 : ∀ x r, ¬ s.HasDot x r 0) :
    (s.merge t).contains x = true ↔ Survives [s, t] x := by
  rw [contains_iff_hasDot (inhabited_merge s t)]
  simp only [hasDot_merge_iff_spares hs ht hs0, Survives, forall_mem_cons,
    exists_mem_cons_iff, not_mem_nil, false_and, exists_false, or_false,
    IsEmpty.forall_iff, implies_true, and_true, and_assoc]

lemma contains_merge_merge_iff (hs : s.Covered) (ht : t.Covered) (hu : u.Covered)
    (hs0 : ∀ x r, ¬ s.HasDot x r 0) (hst0 : ∀ x r, ¬ (s.merge t).HasDot x r 0) :
    ((s.merge t).merge u).contains x = true ↔ Survives [s, t, u] x := by
  rw [contains_merge_iff (hs.merge ht) hu hst0]
  refine exists_congr fun r => exists_congr fun n => ?_
  simp only [forall_mem_cons, exists_mem_cons_iff, not_mem_nil, false_and,
    exists_false, or_false, IsEmpty.forall_iff, implies_true, and_true, spares_merge hs ht hs0,
    hasDot_merge_iff_spares hs ht hs0]
  tauto

lemma Survives.of_three (h : Survives [s, t, u] x) : Survives [s, t] x ∨ Survives [t, u] x := by
  obtain ⟨r, n, hspares, hdot⟩ := h
  simp only [forall_mem_cons, exists_mem_cons_iff, not_mem_nil, false_and,
    exists_false, or_false, IsEmpty.forall_iff, implies_true, and_true] at hspares hdot
  obtain ⟨hs, ht, hu⟩ := hspares
  rcases hdot with hdot | hdot | hdot
  · exact .inl ⟨r, n, by simp [hs, ht], by simp [hdot]⟩
  · exact .inl ⟨r, n, by simp [hs, ht], by simp [hdot]⟩
  · exact .inr ⟨r, n, by simp [ht, hu], by simp [hdot]⟩

end ORSetCore

end

/-! ## Maps -/

namespace ORMap

variable {K V Δ R : Type*} [LinearOrder K] [DecidableEq R] [DeltaReplicatedData V Δ]
  {s t : ORMap K V Δ R}

open ORSetCore

/-- The map without its pending deltas and with settled values. -/
def settled (settle : V → V) (s : ORMap K V Δ R) : ORMap K V Δ R :=
  ⟨s.keys.resetDelta, FinMap.tabulate s.values.keys fun key => (s.values.lookup key).map settle, none⟩

/-- Where two maps alone drop a key that survives with the third one, the values that they forget are
below the value of the third. -/
def ForgottenBelowAt (a b c : ORMap K V Δ R) (key : K) : Prop :=
  Survives [a.keys.toORSetCore, b.keys.toORSetCore, c.keys.toORSetCore] key →
    (¬ Survives [a.keys.toORSetCore, b.keys.toORSetCore] key →
      ValueBelow (a.values.lookup key) (c.values.lookup key) ∧
        ValueBelow (b.values.lookup key) (c.values.lookup key)) ∧
    (¬ Survives [b.keys.toORSetCore, c.keys.toORSetCore] key →
      ValueBelow (b.values.lookup key) (a.values.lookup key) ∧
        ValueBelow (c.values.lookup key) (a.values.lookup key))

def GoodValues (Good : V → Prop) (s : ORMap K V Δ R) : Prop :=
  ∀ key, ∀ v ∈ s.values.lookup key, Good v

omit [DecidableEq R] [DeltaReplicatedData V Δ] in
lemma ext_of_lookup (hkeys : s.keys = t.keys)
    (hvalues : ∀ key, s.values.lookup key = t.values.lookup key) (hdelta : s.delta = t.delta) :
    s = t := by
  have hv : s.values = t.values := Finmap.ext_lookup hvalues
  cases s
  cases t
  simp_all

lemma lookup_merge_of_contains {key : K} (h : (s.merge t).keys.contains key = true) :
    (s.merge t).values.lookup key = joinValues (s.values.lookup key) (t.values.lookup key) :=
  (lookup_merge s t key).trans (if_pos h)

lemma lookup_merge_of_not_contains {key : K}
    (h : ¬ (s.merge t).keys.contains key = true) : (s.merge t).values.lookup key = none :=
  (lookup_merge s t key).trans (if_neg h)

section Laws

variable {Good : V → Prop} {settle : V → V} (laws : JoinLaws Good settle) {a b c : ORMap K V Δ R}

include laws

lemma merge_comm (ha : a.Valid) (hb : b.Valid) (hga : a.GoodValues Good) (hgb : b.GoodValues Good) :
    a.merge b = b.merge a := by
  have hkeys := ORSet.mergeLaws.comm _ _ ha.keys hb.keys
  refine ext_of_lookup hkeys (fun key => ?_) rfl
  rw [lookup_merge, lookup_merge]
  have hcontains : (a.keys.merge b.keys).contains key = (b.keys.merge a.keys).contains key :=
    congrArg (fun keys : ORSet K R => keys.contains key) hkeys
  rw [hcontains]
  exact if_congr Iff.rfl (laws.joinValues_comm (hga key) (hgb key)) rfl

lemma merge_self (ha : a.Valid) (hheld : a.ValuesHeld) (hga : a.GoodValues Good) :
    a.merge a = a.settled settle := by
  have hkeys := ORSet.mergeLaws.self _ ha.keys
  refine ext_of_lookup hkeys (fun key => ?_) rfl
  have hcontains : (a.merge a).keys.contains key = a.keys.resetDelta.contains key :=
    congrArg (fun keys : ORSet K R => keys.contains key) hkeys
  rw [settled, lookup_tabulate]
  cases hv : a.values.lookup key with
  | none =>
    rw [lookup_merge, hv, map_none, ite_self]
    exact ite_self _
  | some v =>
    have hmem : key ∈ a.values.keys := by
      rw [Finmap.mem_keys, mem_iff_isSome, hv]
      rfl
    have hkey : (a.merge a).keys.contains key = true := by
      rw [hcontains]
      exact hheld key (by rw [hv]; rfl)
    rw [lookup_merge_of_contains hkey, laws.joinValues_self (hga key), if_pos hmem, hv]

lemma lookup_assoc_iff (ha : a.Valid) (hb : b.Valid) (hc : c.Valid) (hga : a.GoodValues Good)
    (hgb : b.GoodValues Good) (hgc : c.GoodValues Good) (key : K) :
    ((a.merge b).merge c).values.lookup key = (a.merge (b.merge c)).values.lookup key ↔
      ForgottenBelowAt a b c key := by
  have hab : (a.merge b).keys.contains key = true ↔ _ :=
    contains_merge_iff ha.keys.covered hb.keys.covered ha.keys.wellFormed.dotsPositive
  have hbc : (b.merge c).keys.contains key = true ↔ _ :=
    contains_merge_iff hb.keys.covered hc.keys.covered hb.keys.wellFormed.dotsPositive
  have habc : ((a.merge b).merge c).keys.contains key = true ↔ _ :=
    contains_merge_merge_iff ha.keys.covered hb.keys.covered hc.keys.covered
      ha.keys.wellFormed.dotsPositive (ha.keys.merge hb.keys).wellFormed.dotsPositive
  have hassoc : ((a.merge b).merge c).keys.contains key = (a.merge (b.merge c)).keys.contains key :=
    congrArg (fun keys : ORSet K R => keys.contains key)
      (ORSet.mergeLaws.assoc _ _ _ ha.keys hb.keys hc.keys)
  unfold ForgottenBelowAt
  rw [← hab, ← hbc, ← habc]
  by_cases h3 : ((a.merge b).merge c).keys.contains key = true
  · have h3' := hassoc.symm.trans h3
    rw [lookup_merge_of_contains h3, lookup_merge_of_contains h3']
    by_cases h1 : (a.merge b).keys.contains key = true
    · rw [lookup_merge_of_contains h1]
      by_cases h2 : (b.merge c).keys.contains key = true
      · rw [lookup_merge_of_contains h2, laws.joinValues_assoc (hga key) (hgb key) (hgc key)]
        simp [h1, h2]
      · -- the right grouping forgets the values of `b` and `c`
        rw [lookup_merge_of_not_contains h2, joinValues_none_right,
          laws.joinValues_comm (hga key) (hgb key), laws.joinValues_assoc (hgb key) (hga key) (hgc key),
          laws.joinValues_comm (hga key) (hgc key), laws.joinValues_eq_iff (hgb key) (hgc key)
            (hga key)]
        simp [h1, h2, h3]
    · rw [lookup_merge_of_not_contains h1, joinValues_none_left]
      by_cases h2 : (b.merge c).keys.contains key = true
      · -- the left grouping forgets the values of `a` and `b`
        rw [lookup_merge_of_contains h2, eq_comm, laws.joinValues_eq_iff (hga key) (hgb key) (hgc key)]
        simp [h1, h2, h3]
      · exact absurd (habc.mp h3).of_three
          (not_or.mpr ⟨fun h => h1 (hab.mpr h), fun h => h2 (hbc.mpr h)⟩)
  · have h3' : ¬ (a.merge (b.merge c)).keys.contains key = true := fun h => h3 (hassoc.trans h)
    rw [lookup_merge_of_not_contains h3, lookup_merge_of_not_contains h3']
    simp [h3]

lemma merge_assoc_iff (ha : a.Valid) (hb : b.Valid) (hc : c.Valid) (hga : a.GoodValues Good)
    (hgb : b.GoodValues Good) (hgc : c.GoodValues Good) :
    (a.merge b).merge c = a.merge (b.merge c) ↔ ∀ key, ForgottenBelowAt a b c key := by
  constructor
  · intro h key
    rw [← lookup_assoc_iff laws ha hb hc hga hgb hgc key, h]
  · intro h
    refine ext_of_lookup (ORSet.mergeLaws.assoc _ _ _ ha.keys hb.keys hc.keys) (fun key => ?_) rfl
    exact (lookup_assoc_iff laws ha hb hc hga hgb hgc key).mpr (h key)

end Laws

/-- **Merges of the maps of a run are commutative and idempotent, and they are associative exactly
where the values that a grouping forgets are below the value that stays.** -/
theorem merge_lawful_iff {Good : V → Prop} {settle : V → V} (laws : JoinLaws Good settle)
    {pool : MapPool K V Δ R} (hpool : (MapPool.machine K V Δ R).Reachable pool)
    {a b c : ORMap K V Δ R} (ha : a ∈ pool) (hb : b ∈ pool) (hc : c ∈ pool)
    (hga : a.GoodValues Good) (hgb : b.GoodValues Good) (hgc : c.GoodValues Good) :
    (a.merge b = b.merge a ∧ a.merge a = a.settled settle ∧
      (a.merge b).merge c = a.merge (b.merge c)) ↔ ∀ key, ForgottenBelowAt a b c key := by
  obtain ⟨hva, hheld⟩ := valid_of_reach hpool a ha
  obtain ⟨hvb, -⟩ := valid_of_reach hpool b hb
  obtain ⟨hvc, -⟩ := valid_of_reach hpool c hc
  rw [← merge_assoc_iff laws hva hvb hvc hga hgb hgc]
  constructor
  · exact fun h => h.2.2
  · exact fun h => ⟨merge_comm laws hva hvb hga hgb, merge_self laws hva hheld hga, h⟩

end ORMap

/-! ## A value that is forgotten in one grouping -/

/-- One replica writes, another one removes the key that was written, and a third one writes. -/
lemma reachable_removed {V Δ : Type} [DeltaReplicatedData V Δ] {s t u : ORMap ℕ V Δ ℕ}
    (c d : MapCall ℕ V ℕ) (hs : result [.new] c = some s) (ht : s.remove 1 7 = some t)
    (hu : result [.new, s, t] d = some u) :
    (machine ℕ V Δ ℕ).Reachable [.new, s, t, u] := by
  have hstep {pool : MapPool ℕ V Δ ℕ} {m} (h : (machine ℕ V Δ ℕ).Reachable pool) call
      (hm : pool.result call = some m) : (machine ℕ V Δ ℕ).Reachable (pool ++ [m]) :=
    .step h trivial (congrArg (Option.map (pool ++ [·])) hm)
  exact hstep (hstep (hstep (hstep (.init rfl) .create rfl) c hs) (.remove 1 1 7) ht) d hu

namespace ForgottenValue

def count (replica : ℕ) (c : GCounter ℕ) : GCounter ℕ :=
  (c.increment replica 1).toOption.getD c

/-- One replica counts under a key. -/
def first : ORMap ℕ (GCounter ℕ) (GCounter ℕ) ℕ :=
  ORMap.new.updated 0 7 .new (count 0)

/-- A second one removes the key after it has seen that. -/
def removed : ORMap ℕ (GCounter ℕ) (GCounter ℕ) ℕ :=
  (first.remove 1 7).get (by decide +kernel)

/-- A third one counts under the key on its own. -/
def other : ORMap ℕ (GCounter ℕ) (GCounter ℕ) ℕ :=
  ORMap.new.updated 2 7 .new (count 2)

lemma reachable : (machine ℕ (GCounter ℕ) (GCounter ℕ) ℕ).Reachable
    [.new, first, removed, other] :=
  reachable_removed (.updated 0 0 7 .new (count 0)) (.updated 0 2 7 .new (count 2)) rfl (some_get _).symm rfl

lemma goodValues_insert {v : GCounter ℕ} (hv : v.Positive)
    {s : ORMap ℕ (GCounter ℕ) (GCounter ℕ) ℕ}
    (hs : s.values = (∅ : FinMap ℕ (GCounter ℕ)).insert 7 v) :
    s.GoodValues GCounter.Positive := by
  intro key w hw
  rw [hs] at hw
  rcases of_lookup_insert hw with ⟨-, rfl⟩ | hw
  · exact hv
  · cases hw

/-- The counters of the maps are lawful, and yet the first count is lost in one of the groupings. -/
theorem count_forgotten :
    JoinLaws (GCounter.Positive : GCounter ℕ → Prop) DeltaReplicatedData.resetDelta ∧
    (MapPool.machine ℕ (GCounter ℕ) (GCounter ℕ) ℕ).Reachable
      [.new, first, removed, other] ∧
    first.GoodValues GCounter.Positive ∧ removed.GoodValues GCounter.Positive ∧
    other.GoodValues GCounter.Positive ∧
    (((first.merge removed).merge other).values.lookup 7).map (·.replicaValue 0) = some 0 ∧
    ((first.merge (removed.merge other)).values.lookup 7).map (·.replicaValue 0) = some 1 ∧
    (first.merge removed).merge other ≠ first.merge (removed.merge other) := by
  have hleft : (((first.merge removed).merge other).values.lookup 7).map (·.replicaValue 0) =
      some 0 := by decide +kernel
  have hright : ((first.merge (removed.merge other)).values.lookup 7).map (·.replicaValue 0) =
      some 1 := by decide +kernel
  refine ⟨GCounter.mergeLaws.joinLaws, reachable, goodValues_insert (v := count 0 .new) (by decide) rfl, ?_,
    goodValues_insert (v := count 2 .new) (by decide) rfl, hleft, hright, fun h => ?_⟩
  · intro key v hv
    have hempty : removed.values.keys = ∅ := by decide +kernel
    have hmem : key ∈ removed.values.keys := by
      rw [Finmap.mem_keys, mem_iff_isSome, mem_def.mp hv]
      rfl
    rw [hempty] at hmem
    exact absurd hmem (Finset.notMem_empty key)
  · rw [h, hright] at hleft
    cases hleft

end ForgottenValue

/-! ## Values with an idempotent merge -/

namespace MaxRegister

/-- A register that keeps the largest value. -/
structure Register where
  value : ℕ
  deriving DecidableEq

instance : DeltaReplicatedData Register Register where
  merge a b := ⟨max a.value b.value⟩
  delta _ := none
  mergeDelta a b := ⟨max a.value b.value⟩
  resetDelta a := a
  zero _ := ⟨0⟩
  mergeDeltas a b := ⟨max a.value b.value⟩

lemma joinLaws : JoinLaws (fun _ : Register => True) id :=
  .of_idempotent (fun a b => congrArg Register.mk (Nat.max_comm a.value b.value))
    (fun a b c => congrArg Register.mk (Nat.max_assoc a.value b.value c.value))
    fun a => congrArg Register.mk (Nat.max_self a.value)

/-- One replica writes, a second one removes the key after it has seen that, and a third one writes a
larger value on its own. -/
def first : ORMap ℕ Register Register ℕ := ORMap.new.put 0 7 ⟨3⟩

def removed : ORMap ℕ Register Register ℕ := (first.remove 1 7).get (by decide +kernel)

def other : ORMap ℕ Register Register ℕ := ORMap.new.put 2 7 ⟨5⟩

lemma reachable : (machine ℕ Register Register ℕ).Reachable [.new, first, removed, other] :=
  reachable_removed (.put 0 0 7 ⟨3⟩) (.put 0 2 7 ⟨5⟩) rfl (some_get _).symm rfl

/-- The first two maps alone forget the value of the first, which is below that of the third. -/
theorem merge_lawful :
    (MapPool.machine ℕ Register Register ℕ).Reachable [.new, first, removed, other] ∧
      (first.merge removed).values.lookup 7 = none ∧ first.merge removed = removed.merge first ∧
      first.merge first = first.settled id ∧
      (first.merge removed).merge other = first.merge (removed.merge other) := by
  refine ⟨reachable, by decide +kernel, (ORMap.merge_lawful_iff joinLaws reachable (by simp) (by simp)
    (by simp) (fun _ _ _ => trivial) (fun _ _ _ => trivial) fun _ _ _ => trivial).mpr
      fun key hthree => ?_⟩
  have hkey : key = 7 := by
    obtain ⟨r, n, -, s, hs, dots, hd, -⟩ := hthree
    have hall : ∀ s ∈ [first.keys.toORSetCore, removed.keys.toORSetCore, other.keys.toORSetCore],
        s.elements.keys ⊆ {7} := by decide +kernel
    have hmem : key ∈ s.elements.keys := by
      rw [Finmap.mem_keys, mem_iff_isSome, hd]
      rfl
    exact Finset.mem_singleton.mp (hall s hs hmem)
  subst hkey
  have hremoved := (valid_of_reach reachable removed (by simp)).1.keys
  have hother := (valid_of_reach reachable other (by simp)).1.keys
  have hr := (ORSetCore.contains_merge_iff hremoved.covered hother.covered
    hremoved.wellFormed.dotsPositive (x := 7)).mp (by decide +kernel)
  exact ⟨fun _ => ⟨rfl, rfl⟩, fun h => absurd hr h⟩

end MaxRegister

end Kairo.DistributedData
