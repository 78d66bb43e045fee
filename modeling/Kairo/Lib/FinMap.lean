import Mathlib.Algebra.GroupWithZero.Nat
import Mathlib.Data.Finmap
import Mathlib.Data.Finset.Sort

/-!
# Finite maps given by a table

`Finmap` with a constant family of values, and the one construction on it that Mathlib lacks:
`tabulate s f` is the map with keys in `s` whose value at `k` is `f k`.  Restriction to a set of
keys and the pointwise combination of two maps are instances of it, and a single lemma
(`lookup_tabulate`) describes all of them.  `ordered` lists a set of keys in ascending order.
-/

namespace Kairo.Lib

open Finmap

variable {K V : Type*} [DecidableEq K] {f : K → Option V} {k : K}

abbrev FinMap (K V : Type*) := Finmap (fun _ : K => V)

namespace FinMap

/-- The map with the value `f k` at each key `k` of `s` where `f` has one. -/
def tabulate (s : Finset K) (f : K → Option V) : FinMap K V where
  entries := s.val.filterMap fun k => (f k).map fun v => ⟨k, v⟩
  nodupKeys := by
    rw [← Multiset.nodup_keys]
    have h : ((s.val.filterMap fun k => (f k).map fun v => (⟨k, v⟩ : Σ _ : K, V))).keys ≤ s.val := by
      induction s.val using Multiset.induction with
      | empty => simp
      | cons a t ih =>
        cases hfa : f a with
        | none =>
          rw [Multiset.filterMap_cons_none _ _ (by simp [hfa])]
          exact ih.trans (Multiset.le_cons_self _ _)
        | some v =>
          rw [Multiset.filterMap_cons_some _ _ _ (b := ⟨a, v⟩) (by simp [hfa]), Multiset.keys_cons]
          exact Multiset.cons_le_cons a ih
    exact Multiset.nodup_of_le h s.nodup

@[simp] lemma lookup_tabulate (s : Finset K) (f : K → Option V) (k : K) :
    (tabulate s f).lookup k = if k ∈ s then f k else none := by
  apply Option.ext
  intro v
  rw [← Option.mem_def, mem_lookup_iff]
  simp only [tabulate, Multiset.mem_filterMap, Finset.mem_val, Option.map_eq_some_iff, Sigma.mk.injEq]
  constructor
  · rintro ⟨a, ha, w, hw, rfl, hv⟩
    rw [if_pos ha, hw]
    exact congrArg some (eq_of_heq hv)
  · intro h
    by_cases hk : k ∈ s
    · rw [if_pos hk] at h
      exact ⟨k, hk, v, h, rfl, HEq.rfl⟩
    · rw [if_neg hk] at h
      cases h

lemma lookup_tabulate_keys {W : Type*} {m : FinMap K W} (hf : m.lookup k = none → f k = none) :
    (tabulate m.keys f).lookup k = f k := by
  rw [lookup_tabulate]
  split_ifs with h
  · rfl
  · rw [mem_keys] at h
    exact (hf (lookup_eq_none.mpr h)).symm

lemma lookup_tabulate_union {W W' : Type*} {m : FinMap K W} {m' : FinMap K W'}
    (hf : m.lookup k = none → m'.lookup k = none → f k = none) :
    (tabulate (m.keys ∪ m'.keys) f).lookup k = f k := by
  rw [lookup_tabulate]
  split_ifs with h
  · rfl
  · rw [Finset.mem_union, not_or, mem_keys, mem_keys] at h
    exact (hf (lookup_eq_none.mpr h.1) (lookup_eq_none.mpr h.2)).symm

/-- The entries of `m` whose key satisfies `p`. -/
def retain (p : K → Bool) (m : FinMap K V) : FinMap K V :=
  tabulate (m.keys.filter (p ·)) m.lookup

@[simp] lemma lookup_retain (p : K → Bool) (m : FinMap K V) (k : K) :
    (retain p m).lookup k = if p k then m.lookup k else none := by
  by_cases hp : p k
  · by_cases hk : k ∈ m
    · simp [retain, hp, mem_keys, hk]
    · simp [retain, hp, lookup_eq_none.mpr hk]
  · simp [retain, hp]

lemma mem_iff_isSome {m : FinMap K V} : k ∈ m ↔ (m.lookup k).isSome :=
  lookup_isSome.symm

lemma lookup_insert (m : FinMap K V) (k k' : K) (v : V) :
    (m.insert k v).lookup k' = if k' = k then some v else m.lookup k' := by
  by_cases h : k' = k
  · subst h; simp
  · rw [if_neg h, lookup_insert_of_ne _ h]

lemma of_lookup_insert {m : FinMap K V} {k k' : K} {v x : V} (h : (m.insert k v).lookup k' = some x) :
    k' = k ∧ x = v ∨ m.lookup k' = some x := by
  rw [lookup_insert] at h
  split_ifs at h with hk
  · exact .inl ⟨hk, (Option.some.inj h).symm⟩
  · exact .inr h

lemma lookup_erase (m : FinMap K V) (k k' : K) :
    (m.erase k).lookup k' = if k' = k then none else m.lookup k' := by
  by_cases h : k' = k
  · subst h; simp
  · rw [if_neg h, lookup_erase_ne h]

lemma of_lookup_erase {m : FinMap K V} {k k' : K} {x : V} (h : (m.erase k).lookup k' = some x) :
    m.lookup k' = some x := by
  rw [lookup_erase] at h
  split_ifs at h
  exact h

lemma lookup_singleton (k k' : K) (v : V) :
    (singleton k v : FinMap K V).lookup k' = if k' = k then some v else none := by
  by_cases h : k' = k
  · subst h
    rw [if_pos rfl, lookup_singleton_eq]
  · rw [if_neg h, lookup_eq_none, mem_singleton]
    exact h

end FinMap

section Iteration

variable {α : Type*} [LinearOrder α] {s : Finset α} {a : α}

/-- The order in which ordered sets and maps are iterated. -/
def ordered (s : Finset α) : List α := s.sort (· ≤ ·)

@[simp] lemma mem_ordered : a ∈ ordered s ↔ a ∈ s := Finset.mem_sort _

lemma nodup_ordered (s : Finset α) : (ordered s).Nodup := Finset.sort_nodup _ _

end Iteration

end Kairo.Lib
