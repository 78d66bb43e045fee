import Mathlib.Data.Set.Lattice

/-!
# Dot stores

A dot is the name of one event.  A dot store has seen some events, and some of those are still alive;
a dot that was seen and is not alive has been retired.  Merging keeps a dot alive unless one side has
retired it, so for one dot the merge is the maximum of unseen, alive and retired.  Dot stores are a
join order under this merge.
-/

namespace Kairo.Lib

/-- The dots that are alive, among those that have been seen. -/
@[ext] structure DotStore (δ : Type*) where
  alive : Set δ
  seen : Set δ
  alive_subset : alive ⊆ seen

namespace DotStore

variable {δ : Type*} {s t : DotStore δ}

/-- The dots that both sides hold, and those of one side that the other has not seen. -/
def merge (s t : DotStore δ) : DotStore δ where
  alive := s.alive ∩ t.alive ∪ s.alive \ t.seen ∪ t.alive \ s.seen
  seen := s.seen ∪ t.seen
  alive_subset := by
    rintro d ((⟨hs, -⟩ | ⟨hs, -⟩) | ⟨ht, -⟩)
    · exact .inl (s.alive_subset hs)
    · exact .inl (s.alive_subset hs)
    · exact .inr (t.alive_subset ht)

lemma mem_alive_merge {d : δ} :
    d ∈ (s.merge t).alive ↔
      d ∈ s.alive ∧ d ∈ t.alive ∨ d ∈ s.alive ∧ d ∉ t.seen ∨ d ∈ t.alive ∧ d ∉ s.seen := by
  simp only [merge, Set.mem_union, Set.mem_inter_iff, Set.mem_sdiff]
  tauto

lemma mem_seen_merge {d : δ} : d ∈ (s.merge t).seen ↔ d ∈ s.seen ∨ d ∈ t.seen := Iff.rfl

lemma merge_comm (s t : DotStore δ) : s.merge t = t.merge s := by
  ext d
  · rw [mem_alive_merge, mem_alive_merge]
    tauto
  · rw [mem_seen_merge, mem_seen_merge, or_comm]

lemma merge_self (s : DotStore δ) : s.merge s = s := by
  ext d
  · have hs := @s.alive_subset d
    rw [mem_alive_merge]
    tauto
  · rw [mem_seen_merge, or_self]

lemma merge_assoc (s t u : DotStore δ) : (s.merge t).merge u = s.merge (t.merge u) := by
  ext d
  · -- one dot: alive on some side and retired on none
    simp only [mem_alive_merge, mem_seen_merge]
    tauto
  · simp only [mem_seen_merge, or_assoc]

instance : Max (DotStore δ) := ⟨merge⟩

/-- **Dot stores form a join order under merge.** -/
instance : SemilatticeSup (DotStore δ) :=
  SemilatticeSup.mk' merge_comm merge_assoc merge_self

lemma sup_eq_merge (s t : DotStore δ) : s ⊔ t = s.merge t := rfl

end DotStore

end Kairo.Lib
