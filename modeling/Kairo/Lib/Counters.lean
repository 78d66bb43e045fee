import Kairo.Lib.FinMap
import Mathlib.Algebra.Order.BigOperators.Group.Finset

/-!
# Maps of counters

Finite maps to natural numbers in which a missing key counts as zero.  They are read through `count`;
`raise` is the pointwise maximum (`count_raise`), and `total` is the sum of all counters.
-/

namespace Kairo.Lib.FinMap

open Finset

variable {K : Type*} [DecidableEq K] {m m' other : FinMap K ℕ} {k : K}

/-- The counter of a key, zero when the map has no entry for it. -/
def count (m : FinMap K ℕ) (k : K) : ℕ := (m.lookup k).getD 0

/-- Starts from `other` and raises every counter that is larger in `m`. -/
def raise (m other : FinMap K ℕ) : FinMap K ℕ :=
  tabulate (m.keys ∪ other.keys) fun k =>
    match m.lookup k with
    | some n => if other.count k < n then some n else other.lookup k
    | none => other.lookup k

lemma count_insert (m : FinMap K ℕ) (k k' : K) (n : ℕ) :
    count (m.insert k n) k' = if k' = k then n else m.count k' := by
  unfold count
  rw [lookup_insert]
  split <;> rfl

lemma count_retain (p : K → Bool) (m : FinMap K ℕ) (k : K) :
    count (retain p m) k = if p k then m.count k else 0 := by
  unfold count
  rw [lookup_retain]
  split <;> rfl

lemma count_eq_zero_of_notMem (h : k ∉ m.keys) : m.count k = 0 := by
  rw [Finmap.mem_keys] at h
  rw [count, Finmap.lookup_eq_none.mpr h]
  rfl

lemma lookup_raise (m other : FinMap K ℕ) (k : K) :
    (m.raise other).lookup k =
      match m.lookup k with
      | some n => if other.count k < n then some n else other.lookup k
      | none => other.lookup k :=
  lookup_tabulate_union fun hm ho => by rw [hm, ho]

lemma count_raise (m other : FinMap K ℕ) (k : K) :
    (m.raise other).count k = max (m.count k) (other.count k) := by
  rw [count, lookup_raise]
  cases hm : m.lookup k with
  | none =>
    have h0 : m.count k = 0 := by rw [count, hm]; rfl
    rw [h0, Nat.zero_max]
    rfl
  | some n =>
    have hn : m.count k = n := by rw [count, hm]; rfl
    rw [hn]
    dsimp only
    split_ifs with hlt
    · exact (max_eq_left hlt.le).symm
    · exact (max_eq_right (not_lt.mp hlt)).symm

lemma count_erase (m : FinMap K ℕ) (k k' : K) :
    count (m.erase k) k' = if k' = k then 0 else m.count k' := by
  unfold count
  rw [lookup_erase]
  split <;> rfl

lemma isSome_lookup_raise (h : ((m.raise other).lookup k).isSome) :
    (m.lookup k).isSome ∨ (other.lookup k).isSome := by
  rw [lookup_raise] at h
  cases hm : m.lookup k with
  | some n => exact .inl rfl
  | none =>
    rw [hm] at h
    exact .inr h

lemma isSome_lookup_raise_right (h : (other.lookup k).isSome) :
    ((m.raise other).lookup k).isSome := by
  rw [lookup_raise]
  cases m.lookup k with
  | none => exact h
  | some n =>
    dsimp only
    split_ifs
    · rfl
    · exact h

/-- Where both are known the larger one stays, and the second one on a tie. -/
lemma lookup_raise_eq_ite (m other : FinMap K ℕ) (k : K) :
    (m.raise other).lookup k = if other.count k < m.count k then m.lookup k else other.lookup k := by
  rw [lookup_raise]
  cases hm : m.lookup k with
  | none => simp [count, hm]
  | some n => simp [show m.count k = n by rw [count, hm]; rfl]

lemma raise_assoc (a b c : FinMap K ℕ) : (a.raise b).raise c = a.raise (b.raise c) := by
  refine Finmap.ext_lookup fun k => ?_
  simp only [lookup_raise_eq_ite, count_raise]
  split_ifs <;> first | rfl | omega

lemma raise_self (m : FinMap K ℕ) : m.raise m = m := by
  refine Finmap.ext_lookup fun k => ?_
  rw [lookup_raise_eq_ite, if_neg (lt_irrefl _)]

/-- Keys that go at the end may as well go before. -/
lemma retain_raise_retain {p q : K → Bool} (h : ∀ k, p k = true → q k = true) (a b : FinMap K ℕ) :
    retain p (raise (retain q a) b) = retain p (a.raise b) ∧
      retain p (raise a (retain q b)) = retain p (a.raise b) := by
  constructor
  all_goals
    refine Finmap.ext_lookup fun k => ?_
    rw [lookup_retain, lookup_retain]
    by_cases hp : p k = true
    · simp only [hp, if_true, lookup_raise_eq_ite, count_retain, lookup_retain, h k hp]
    · simp only [hp, Bool.false_eq_true, if_false]

/-! ## Maps without zeros -/

/-- No counter is stored as zero. -/
def Positive (m : FinMap K ℕ) : Prop := ∀ k, m.lookup k ≠ some 0

lemma positive_iff : m.Positive ↔ ∀ k ∈ m.keys, m.lookup k ≠ some 0 := by
  refine ⟨fun h k _ => h k, fun h k hk => ?_⟩
  have hmem : k ∈ m := mem_iff_isSome.mpr (by rw [hk]; rfl)
  exact h k (Finmap.mem_keys.mpr hmem) hk

instance : Decidable m.Positive := decidable_of_iff _ positive_iff.symm

/-- Such a map is known by its counts. -/
lemma Positive.lookup_eq (hm : m.Positive) (k : K) :
    m.lookup k = if m.count k = 0 then none else some (m.count k) := by
  have hk := hm k
  cases h : m.lookup k with
  | none => simp [count, h]
  | some n =>
    have hn : m.count k = n := by rw [count, h]; rfl
    rw [hn, if_neg]
    rintro rfl
    exact hk h

lemma Positive.ext (hm : m.Positive) (hm' : m'.Positive)
    (h : ∀ k, m.count k = m'.count k) : m = m' :=
  Finmap.ext_lookup fun k => by rw [hm.lookup_eq, hm'.lookup_eq, h]

lemma Positive.raise (m : FinMap K ℕ) {other : FinMap K ℕ} (h : other.Positive) :
    (m.raise other).Positive := by
  intro k h0
  rw [lookup_raise_eq_ite] at h0
  split_ifs at h0 with hlt
  · have hk : m.count k = 0 := by rw [count, h0]; rfl
    omega
  · exact h k h0

lemma Positive.erase (h : m.Positive) (k : K) : Positive (m.erase k) := by
  intro k' h0
  rw [lookup_erase] at h0
  split_ifs at h0
  exact h k' h0

lemma Positive.raise_comm (hm : m.Positive) (hm' : m'.Positive) : m.raise m' = m'.raise m :=
  (hm'.raise m).ext (hm.raise m') fun k => by rw [count_raise, count_raise, max_comm]

lemma Positive.isSome_lookup_raise_left (hm : m.Positive) (h : (m.lookup k).isSome) :
    ((m.raise other).lookup k).isSome := by
  rw [lookup_raise_eq_ite]
  split_ifs with hlt
  · exact h
  · rw [hm.lookup_eq] at h
    have hk : other.count k ≠ 0 := by
      intro h0
      rw [if_pos (by omega)] at h
      cases h
    cases ho : other.lookup k with
    | none => exact absurd (by rw [count, ho]; rfl) hk
    | some n => rfl

/-! ## Totals -/

def total (m : FinMap K ℕ) : ℕ := ∑ k ∈ m.keys, m.count k

/-- Keys without an entry add nothing. -/
lemma total_eq_sum {s : Finset K} (h : m.keys ⊆ s) : m.total = ∑ k ∈ s, m.count k :=
  sum_subset h fun _ _ hk => count_eq_zero_of_notMem hk

lemma total_congr (h : ∀ k, m.count k = m'.count k) : m.total = m'.total := by
  rw [total_eq_sum subset_union_left, total_eq_sum subset_union_right]
  exact sum_congr rfl fun k _ => h k

lemma total_change (h : ∀ k' ≠ k, m'.count k' = m.count k') :
    m'.total + m.count k = m.total + m'.count k := by
  have hm : m.keys ⊆ insert k (m.keys ∪ m'.keys) := subset_union_left.trans (subset_insert _ _)
  have hm' : m'.keys ⊆ insert k (m.keys ∪ m'.keys) := subset_union_right.trans (subset_insert _ _)
  rw [total_eq_sum hm, total_eq_sum hm', ← sum_erase_add _ _ (mem_insert_self k _),
    ← sum_erase_add _ _ (mem_insert_self k _), sum_congr rfl fun k' hk' => h k' (ne_of_mem_erase hk')]
  exact Nat.add_right_comm _ _ _

lemma total_erase (m : FinMap K ℕ) (k : K) : total (m.erase k) + m.count k = m.total := by
  rw [total_change fun k' hk' => by rw [count_erase, if_neg hk'], count_erase, if_pos rfl, add_zero]

lemma total_insert (m : FinMap K ℕ) (k : K) (n : ℕ) :
    total (m.insert k n) + m.count k = m.total + n := by
  rw [total_change fun k' hk' => by rw [count_insert, if_neg hk'], count_insert, if_pos rfl]

end Kairo.Lib.FinMap
