import Mathlib.Order.Bounds.Basic
import Mathlib.Order.MinMax

/-!
# Causal histories

Replicas of a join-ordered state with vector clocks.  `hist n k` is the state right after the `k`-th
own change of replica `n`.  A clock `v` *explains* a state `a` when `a` is the least upper bound of
the recorded states that `v` counts.  Explained states are determined by their clock
(`Explains.unique`) and grow with it (`Explains.mono`); a join of two states is explained by the
pointwise maximum of their clocks (`Explains.sup`), and a recorded change by the incremented clock
(`Explains.record`).
-/

namespace Kairo.Lib

variable {N α : Type*}

/-- The recorded states a clock counts. -/
def Known (hist : N → ℕ → α) (v : N → ℕ) : Set α := {x | ∃ n, ∃ k ≤ v n, hist n k = x}

/-- Records a state as the `k`-th change of a replica. -/
def recordAt [DecidableEq N] (hist : N → ℕ → α) (n : N) (k : ℕ) (a : α) : N → ℕ → α :=
  fun m j => if m = n ∧ j = k then a else hist m j

lemma recordAt_of_ne [DecidableEq N] {hist : N → ℕ → α} {n m : N} {k j : ℕ} {a : α}
    (h : ¬ (m = n ∧ j = k)) : recordAt hist n k a m j = hist m j := if_neg h

variable [PartialOrder α]

/-- The state is the join of the recorded states its clock counts. -/
def Explains (hist : N → ℕ → α) (v : N → ℕ) (a : α) : Prop := IsLUB (Known hist v) a

namespace Explains

variable {hist : N → ℕ → α} {v w : N → ℕ} {a b c : α}

section

variable (ha : Explains hist v a)

include ha

lemma unique (hb : Explains hist v b) : a = b := IsLUB.unique ha hb

lemma le_of_known {n : N} {k : ℕ} (hk : k ≤ v n) : hist n k ≤ a :=
  ha.1 ⟨n, k, hk, rfl⟩

lemma mono (hb : Explains hist w b) (h : ∀ n, v n ≤ w n) : a ≤ b := by
  refine ha.2 ?_
  rintro x ⟨n, k, hk, rfl⟩
  exact hb.le_of_known (hk.trans (h n))

lemma congr (h : ∀ n, v n = w n ∨ ∀ k, hist n k = hist n 0) : Explains hist w a := by
  have hk : ∀ {v w : N → ℕ}, (∀ n, v n = w n ∨ ∀ k, hist n k = hist n 0) →
      Known hist v ⊆ Known hist w := by
    rintro v w h x ⟨n, k, hk, rfl⟩
    rcases h n with e | hc
    · exact ⟨n, k, e ▸ hk, rfl⟩
    · exact ⟨n, 0, Nat.zero_le _, (hc k).symm⟩
  have heq : Known hist v = Known hist w :=
    Set.Subset.antisymm (hk h) (hk fun n => (h n).imp_left Eq.symm)
  rw [Explains, ← heq]
  exact ha

lemma sup (hb : Explains hist w b) (hc : IsLUB {a, b} c) :
    Explains hist (fun n => max (v n) (w n)) c := by
  have hac : a ≤ c := hc.1 (by simp)
  have hbc : b ≤ c := hc.1 (by simp)
  refine ⟨?_, fun u hu => hc.2 ?_⟩
  · rintro x ⟨n, k, hk, rfl⟩
    rcases le_max_iff.mp hk with hk | hk
    · exact (ha.le_of_known hk).trans hac
    · exact (hb.le_of_known hk).trans hbc
  · rintro x (rfl | rfl)
    · refine ha.2 ?_
      rintro y ⟨n, k, hk, rfl⟩
      exact hu ⟨n, k, hk.trans (le_max_left _ _), rfl⟩
    · refine hb.2 ?_
      rintro y ⟨n, k, hk, rfl⟩
      exact hu ⟨n, k, hk.trans (le_max_right _ _), rfl⟩

end

lemma const [Nonempty N] (a : α) (v : N → ℕ) : Explains (fun _ _ => a) v a := by
  obtain ⟨n⟩ := ‹Nonempty N›
  refine ⟨?_, fun u hu => hu ⟨n, 0, Nat.zero_le _, rfl⟩⟩
  rintro x ⟨-, -, -, rfl⟩
  exact le_rfl

end Explains

/-! ## Recording a change -/

section

variable [DecidableEq N]

variable {hist : N → ℕ → α} {v : N → ℕ} {a a' : α} {n : N} {k : ℕ}

/-- A clock that does not count the change explains what it did before. -/
lemma Explains.record_of_lt (ha : Explains hist v a) (h : v n < k) :
    Explains (recordAt hist n k a') v a := by
  have hk : Known (recordAt hist n k a') v = Known hist v := by
    ext x
    refine exists_congr fun m => exists_congr fun j => and_congr_right fun hj => ?_
    rw [recordAt_of_ne]
    rintro ⟨rfl, rfl⟩
    exact absurd hj (not_le.mpr h)
  rw [Explains, hk]
  exact ha

/-- The next change of a replica, to a larger state. -/
lemma Explains.record (ha : Explains hist v a) (h : a ≤ a') :
    Explains (recordAt hist n (v n + 1) a') (fun m => if m = n then v n + 1 else v m) a' := by
  refine ⟨?_, fun u hu => hu ⟨n, v n + 1, by simp, by simp [recordAt]⟩⟩
  rintro x ⟨m, j, hj, rfl⟩
  by_cases hm : m = n ∧ j = v n + 1
  · rw [recordAt, if_pos hm]
  · rw [recordAt_of_ne hm]
    refine (ha.le_of_known ?_).trans h
    dsimp only at hj
    split_ifs at hj with e
    · subst e
      exact Nat.lt_succ_iff.mp (lt_of_le_of_ne hj fun e => hm ⟨rfl, e⟩)
    · exact hj

end

end Kairo.Lib
