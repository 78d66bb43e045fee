import Mathlib.Data.Finset.Card
import Mathlib.Data.List.Rotate

/-!
# Walks around a ring

A list without duplicates is read as a ring: the walk from a member visits the other members in the
order of the list and goes on with the first one after the last.
-/

namespace Kairo.Lib

open List

variable {α : Type*} [DecidableEq α] {ring left right : List α} {a b : α}

/-- The other members of a ring, in the order of the walk that starts after a member. -/
def around (ring : List α) (a : α) : List α :=
  (ring.rotate (ring.idxOf a + 1)).take (ring.length - 1)

lemma around_append_cons (h : a ∉ left) : around (left ++ a :: right) a = right ++ left := by
  have hi : (left ++ a :: right).idxOf a + 1 = (left ++ [a]).length := by
    rw [idxOf_append_of_notMem h, idxOf_cons_self, length_append, length_singleton]
  rw [around, hi, append_cons, rotate_append_length_eq, ← append_assoc]
  exact take_left' (by simp; omega)

/-- A member splits the ring into what comes before and after it. -/
lemma exists_around (h : ring.Nodup) (ha : a ∈ ring) :
    ∃ left right, ring = left ++ a :: right ∧ a ∉ left ++ right ∧ around ring a = right ++ left := by
  obtain ⟨left, right, rfl⟩ := append_of_mem ha
  have hlr := (nodup_middle.mp h).notMem
  exact ⟨left, right, rfl, hlr, around_append_cons fun hl => hlr (mem_append_left _ hl)⟩

lemma around_perm (h : ring.Nodup) (ha : a ∈ ring) : (around ring a).Perm (ring.erase a) := by
  obtain ⟨left, right, rfl, hl, hw⟩ := exists_around h ha
  rw [hw, erase_append_right _ fun hm => hl (mem_append_left _ hm), erase_cons_head]
  exact perm_append_comm

/-- The walk past the members that do not satisfy a predicate is a walk around the smaller ring. -/
lemma filter_around (h : ring.Nodup) (ha : a ∈ ring) {p : α → Bool} (hp : p a) :
    (around ring a).filter p = around (ring.filter p) a := by
  obtain ⟨left, right, rfl, hl, hw⟩ := exists_around h ha
  rw [hw, filter_append, filter_append, filter_cons_of_pos hp,
    around_append_cons fun hm => hl (mem_append_left _ (mem_of_mem_filter hm))]

omit [DecidableEq α] in
lemma mem_take_append_cons (h : a ∉ left) (k : ℕ) :
    a ∈ (left ++ a :: right).take k ↔ left.length < k := by
  rw [take_append, mem_append]
  constructor
  · rintro (hm | hm)
    · exact absurd (mem_of_mem_take hm) h
    · by_contra hk
      rw [Nat.sub_eq_zero_of_le (not_lt.mp hk)] at hm
      cases hm
  · intro hk
    obtain ⟨n, hn⟩ := Nat.exists_eq_add_of_lt hk
    have hsub : k - left.length = n + 1 := by omega
    rw [hsub]
    exact .inr mem_cons_self

/-- Where the list of a ring starts does not matter. -/
lemma around_append_comm (h : (left ++ right).Nodup) (ha : a ∈ left) :
    around (left ++ right) a = around (right ++ left) a := by
  obtain ⟨l, m, rfl⟩ := append_of_mem ha
  rw [append_assoc, cons_append] at h ⊢
  have hal := (nodup_middle.mp h).notMem
  rw [around_append_cons fun hl => hal (mem_append_left _ hl), ← append_assoc,
    around_append_cons (by simp_all), append_assoc]

/-- One member comes soon after another exactly if the other comes shortly before the one. -/
lemma mem_take_around (h : ring.Nodup) (ha : a ∈ ring) (hb : b ∈ ring) (k : ℕ) :
    b ∈ (around ring a).take k ↔ a ∈ (around ring b).reverse.take k := by
  obtain ⟨left, right, rfl, hlr, hw⟩ := exists_around h hb
  have hbs : b ∉ right ++ left := fun hm => hlr (perm_append_comm.mem_iff.mp hm)
  rw [hw]
  by_cases hab : a = b
  · subst hab
    rw [hw]
    exact iff_of_false (fun hm => hbs (mem_of_mem_take hm))
      fun hm => hbs (mem_reverse.mp (mem_of_mem_take hm))
  -- read from `b` on, the ring is `b` and its walk, which `a` splits
  have hstart : around (left ++ b :: right) a = around (b :: (right ++ left)) a := by
    obtain hl | hr := mem_append.mp ha
    · exact around_append_comm h hl
    · exact (around_append_comm (nodup_append_comm.mp h) hr).symm
  have hm : a ∈ left ++ right := (mem_cons.mp (perm_middle.mem_iff.mp ha)).resolve_left hab
  obtain ⟨u, v, hs⟩ := append_of_mem (perm_append_comm.mem_iff.mp hm)
  have hn : (right ++ left).Nodup := nodup_append_comm.mp (nodup_middle.mp h).of_cons
  rw [hs] at hn hbs
  have hauv := (nodup_middle.mp hn).notMem
  rw [hstart, hs, ← cons_append, around_append_cons (by simp_all), reverse_append,
    reverse_cons, append_assoc, singleton_append,
    mem_take_append_cons (by simp_all), mem_take_append_cons (by simp_all), length_reverse]

/-- The number of members that have a given one among the next `k`. -/
lemma card_mem_take_around (h : ring.Nodup) (hb : b ∈ ring) (k : ℕ) :
    (ring.toFinset.filter fun a => b ∈ (around ring a).take k).card = min k (ring.length - 1) := by
  have hp := around_perm h hb
  have hset : (ring.toFinset.filter fun a => b ∈ (around ring a).take k) =
      ((around ring b).reverse.take k).toFinset := by
    ext a
    rw [Finset.mem_filter, mem_toFinset, mem_toFinset]
    constructor
    · rintro ⟨ha, hm⟩
      exact (mem_take_around h ha hb k).mp hm
    · intro hm
      have ha := hp.mem_iff.mp (mem_reverse.mp (mem_of_mem_take hm))
      exact ⟨mem_of_mem_erase ha, (mem_take_around h (mem_of_mem_erase ha) hb k).mpr hm⟩
  have hn : (around ring b).reverse.Nodup := nodup_reverse.mpr (hp.nodup_iff.mpr (h.erase b))
  rw [hset, toFinset_card_of_nodup (hn.sublist (take_sublist _ _)), length_take,
    length_reverse, hp.length_eq, length_erase_of_mem hb]

end Kairo.Lib
