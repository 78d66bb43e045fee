import Kairo.Lib.Counters
import Mathlib.Data.String.Basic

/-!
# Vector clocks

The clock that orders gossip states.  A missing dimension counts as zero, so a clock is read through
`get` only; `compare` decides the pointwise order, as the loop `compareKeys` does that stops early, and
`merge` is the pointwise maximum (`get_merge`).
-/

namespace Kairo.Cluster

open Kairo.Lib FinMap

inductive VectorClockOrdering
  | same | before | after | concurrent
  deriving DecidableEq, Repr

structure VectorClock where
  versions : FinMap String ℕ
  deriving DecidableEq

namespace VectorClock

def new : VectorClock := ⟨∅⟩

/-- The counter of a node, zero when the clock has no entry for it. -/
def get (c : VectorClock) (node : String) : ℕ := c.versions.count node

def increment (c : VectorClock) (node : String) : VectorClock :=
  ⟨c.versions.insert node (c.get node + 1)⟩

def ofFlags : Bool → Bool → VectorClockOrdering
  | false, false => .same
  | true, false => .before
  | false, true => .after
  | true, true => .concurrent

def compare (c other : VectorClock) : VectorClockOrdering :=
  let nodes := c.versions.keys ∪ other.versions.keys
  let hasLess := decide (∃ n ∈ nodes, c.get n < other.get n)
  let hasGreater := decide (∃ n ∈ nodes, other.get n < c.get n)
  ofFlags hasLess hasGreater

/-- The pass over the nodes, which ends early once both flags are set. -/
def comparePass (c other : VectorClock) : List String → Bool → Bool → VectorClockOrdering
  | [], hasLess, hasGreater => ofFlags hasLess hasGreater
  | node :: nodes, hasLess, hasGreater =>
    let hasLess := hasLess || decide (c.get node < other.get node)
    let hasGreater := hasGreater || decide (other.get node < c.get node)
    if hasLess && hasGreater then .concurrent else comparePass c other nodes hasLess hasGreater

/-- `compare` with its loop: through the keys of this clock and then of the other one. -/
def compareKeys (c other : VectorClock) : VectorClockOrdering :=
  c.comparePass other (ordered c.versions.keys ++ ordered other.versions.keys) false false

/-- Starts from `other` and raises every counter that is larger in `c`. -/
def merge (c other : VectorClock) : VectorClock := ⟨c.versions.raise other.versions⟩

def prune (c : VectorClock) (node : String) : VectorClock := ⟨c.versions.erase node⟩

/-! ## Reading a clock -/

lemma get_increment (c : VectorClock) (node n : String) :
    (c.increment node).get n = if n = node then c.get node + 1 else c.get n :=
  count_insert _ _ _ _

lemma get_merge (c other : VectorClock) (n : String) :
    (c.merge other).get n = max (c.get n) (other.get n) :=
  count_raise _ _ _

/-! ## The order of clocks -/

lemma exists_lt_iff (c other : VectorClock) :
    (∃ n ∈ c.versions.keys ∪ other.versions.keys, c.get n < other.get n) ↔
      ∃ n, c.get n < other.get n := by
  refine ⟨fun ⟨n, _, h⟩ => ⟨n, h⟩, fun ⟨n, h⟩ => ⟨n, ?_, h⟩⟩
  by_contra hn
  have h0 : other.get n = 0 :=
    count_eq_zero_of_notMem fun hm => hn (Finset.mem_union_right _ hm)
  omega

/-- The pass sets the flags as if it went through all the nodes. -/
lemma comparePass_eq (c other : VectorClock) (nodes : List String) (hasLess hasGreater : Bool) :
    c.comparePass other nodes hasLess hasGreater =
      ofFlags (hasLess || nodes.any fun n => c.get n < other.get n)
        (hasGreater || nodes.any fun n => other.get n < c.get n) := by
  induction nodes generalizing hasLess hasGreater with
  | nil => simp [comparePass]
  | cons node nodes ih =>
    rw [comparePass, ih, List.any_cons, List.any_cons, ← Bool.or_assoc, ← Bool.or_assoc]
    split_ifs with h
    · rw [Bool.and_eq_true] at h
      rw [h.1, h.2]
      rfl
    · rfl

lemma compareKeys_eq_compare (c other : VectorClock) : c.compareKeys other = c.compare other := by
  have hany : ∀ p : String → Bool,
      (ordered c.versions.keys ++ ordered other.versions.keys).any p =
        decide (∃ n ∈ c.versions.keys ∪ other.versions.keys, p n = true) := fun p =>
    Bool.eq_iff_iff.mpr (by simp [or_and_right, exists_or])
  rw [compareKeys, comparePass_eq, hany, hany, compare]
  simp only [Bool.false_or, decide_eq_true_eq]

lemma compare_iff (c other : VectorClock) :
    (c.compare other = .same ↔ ∀ n, c.get n = other.get n) ∧
    (c.compare other = .before ↔ (∀ n, c.get n ≤ other.get n) ∧ ∃ n, c.get n < other.get n) ∧
    (c.compare other = .after ↔ (∀ n, other.get n ≤ c.get n) ∧ ∃ n, other.get n < c.get n) ∧
    (c.compare other = .concurrent ↔ (∃ n, c.get n < other.get n) ∧ ∃ n, other.get n < c.get n) := by
  have hgt : (∃ n ∈ c.versions.keys ∪ other.versions.keys, other.get n < c.get n) ↔
      ∃ n, other.get n < c.get n := by
    rw [Finset.union_comm, exists_lt_iff]
  have heq : (∀ n, c.get n = other.get n) ↔
      (¬ ∃ n, c.get n < other.get n) ∧ ¬ ∃ n, other.get n < c.get n := by
    simp only [not_exists, not_lt, le_antisymm_iff, forall_and, and_comm]
  have hle : ∀ f g : String → ℕ, (∀ n, f n ≤ g n) ↔ ¬ ∃ n, g n < f n := fun f g => by simp
  rw [heq, hle, hle, ← hgt, ← exists_lt_iff, compare]
  by_cases h1 : ∃ n ∈ c.versions.keys ∪ other.versions.keys, c.get n < other.get n <;>
    by_cases h2 : ∃ n ∈ c.versions.keys ∪ other.versions.keys, other.get n < c.get n <;>
    simp only [h1, h2, decide_true, decide_false] <;> simp [ofFlags]

/-! ## The lattice of clocks -/

instance : Preorder VectorClock := .lift get

variable {a b c : VectorClock}

lemma positive_increment (ha : a.versions.Positive) (node : String) :
    (a.increment node).versions.Positive := by
  intro n hn
  rw [VectorClock.increment, lookup_insert] at hn
  split_ifs at hn
  · cases hn
  · exact ha n hn

/-- **Clocks form a lattice**: the loop answers by the order entry by entry, and the merge is the least
upper bound. -/
theorem compareKeys_merge (ha : a.versions.Positive) (hb : b.versions.Positive) :
    (a.compareKeys b = .same ↔ ∀ n, a.get n = b.get n) ∧
    (a.compareKeys b = .before ↔ (∀ n, a.get n ≤ b.get n) ∧ ∃ n, a.get n < b.get n) ∧
    (a.compareKeys b = .after ↔ (∀ n, b.get n ≤ a.get n) ∧ ∃ n, b.get n < a.get n) ∧
    (a.compareKeys b = .concurrent ↔ (∃ n, a.get n < b.get n) ∧ ∃ n, b.get n < a.get n) ∧
    IsLUB {a, b} (a.merge b) ∧ a.merge b = b.merge a ∧
    (a.merge b).merge c = a.merge (b.merge c) ∧ a.merge a = a := by
  rw [compareKeys_eq_compare]
  obtain ⟨hsame, hbefore, hafter, hconcurrent⟩ := compare_iff a b
  refine ⟨hsame, hbefore, hafter, hconcurrent, ⟨?_, fun d hd n => ?_⟩,
    congrArg VectorClock.mk (ha.raise_comm hb), congrArg VectorClock.mk (raise_assoc _ _ _),
    congrArg VectorClock.mk (raise_self _)⟩
  · rintro _ (rfl | rfl) n <;> rw [get_merge]
    · exact le_max_left _ _
    · exact le_max_right _ _
  · rw [get_merge]
    exact max_le (hd (.inl rfl) n) (hd (.inr rfl) n)

theorem compareKeys_merge_increment :
    (new.increment "a").compareKeys (new.increment "b") = .concurrent ∧
      (new.increment "a").merge (new.increment "b") = (new.increment "b").merge (new.increment "a") := by
  have hnew : new.versions.Positive := fun n h => by cases h
  have h := compareKeys_merge (c := new) (positive_increment hnew "a") (positive_increment hnew "b")
  exact ⟨h.2.2.2.1.mpr ⟨⟨"b", by decide⟩, ⟨"a", by decide⟩⟩, h.2.2.2.2.2.1⟩

end VectorClock

end Kairo.Cluster
