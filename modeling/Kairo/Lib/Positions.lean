import Mathlib.Data.List.Perm.Basic

/-!
# Positions of a list

What erasing or replacing the element at a position does to membership and to counts.  A list of calls
in progress is used through these lemmas: a call leaves the list, or moves on in its place.
-/

namespace Kairo.Lib

open List Option

variable {α : Type*} {l : List α} {i : ℕ} {a b c : α}

lemma mem_eraseIdx_of_ne (hi : l[i]? = some a) (hb : b ≠ a) (hm : b ∈ l) : b ∈ l.eraseIdx i := by
  obtain ⟨j, hj⟩ := getElem?_of_mem hm
  refine mem_eraseIdx_iff_getElem?.mpr ⟨j, ?_, hj⟩
  rintro rfl
  rw [hi] at hj
  exact hb (some.inj hj).symm

lemma mem_set_of_ne (hi : l[i]? = some a) (hb : b ≠ a) (hm : b ∈ l) : b ∈ l.set i c := by
  obtain ⟨j, hj⟩ := getElem?_of_mem hm
  refine mem_of_getElem? (i := j) ?_
  rw [getElem?_set_ne, hj]
  rintro rfl
  rw [hi] at hj
  exact hb (some.inj hj).symm

lemma mem_set_self (hi : l[i]? = some a) : c ∈ l.set i c := by
  obtain ⟨hlt, _⟩ := List.getElem?_eq_some_iff.mp hi
  exact mem_set hlt c

lemma countP_eraseIdx (q : α → Bool) (hi : l[i]? = some a) :
    (l.eraseIdx i).countP q + (if q a then 1 else 0) = l.countP q := by
  obtain ⟨hlt, rfl⟩ := List.getElem?_eq_some_iff.mp hi
  rw [← (getElem_cons_eraseIdx_perm hlt).countP_eq q, countP_cons]

lemma countP_set (q : α → Bool) (hi : l[i]? = some a) :
    (l.set i b).countP q + (if q a then 1 else 0) = l.countP q + (if q b then 1 else 0) := by
  obtain ⟨hlt, _⟩ := List.getElem?_eq_some_iff.mp hi
  have herase := countP_eraseIdx q hi
  have hset := (set_perm_cons_eraseIdx hlt b).countP_eq q
  rw [countP_cons] at hset
  omega

lemma countP_flatten_set (p : α → Bool) {l : List (List α)} {old : List α} (hi : l[i]? = some old)
    (new : List α) :
    (l.set i new).flatten.countP p + old.countP p = l.flatten.countP p + new.countP p := by
  obtain ⟨hlt, rfl⟩ := List.getElem?_eq_some_iff.mp hi
  have hset := (set_perm_cons_eraseIdx hlt new).flatten.countP_eq p
  have hl := (getElem_cons_eraseIdx_perm hlt).flatten.countP_eq p
  rw [flatten_cons, countP_append] at hset hl
  omega

end Kairo.Lib
