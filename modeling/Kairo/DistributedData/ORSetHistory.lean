import Kairo.DistributedData.ORSet

/-!
# Histories of operations and dots of sets

`H r` lists the operations replica `r` has performed, in order: its adds carry the dots `(r, 1)`,
`(r, 2)`, …  The second part says which dots an element has after each operation on a set.
-/

namespace Kairo.DistributedData

open Kairo.Lib VersionVector FinMap Option SetOp Cluster

variable {T R : Type*} {ops : List (SetOp T R)} {r : R} {k : ℕ}

/-! ## Histories -/

/-- The payload of one add. -/
def single (x : T) (r : R) (n : ℕ) : ORSetCore T R :=
  ⟨Finmap.singleton x (.one r n), .one r n⟩

def addCount : List (SetOp T R) → ℕ
  | [] => 0
  | .add _ :: ops => addCount ops + 1
  | .remove _ :: ops => addCount ops

/-- The operations of `r` after `k` adds: dots are numbered on, and a remove carries the number of
adds before it. -/
def Numbered (r : R) : ℕ → List (SetOp T R) → Prop
  | _, [] => True
  | k, .add set :: ops => (∃ x, set = single x r (k + 1)) ∧ Numbered r (k + 1) ops
  | k, .remove op :: ops => op.removeDot = .one r k ∧ Numbered r k ops

abbrev History (T R : Type*) := R → List (SetOp T R)

/-- `r` has added `x` with the dot `(r, n)`. -/
def Added (H : History T R) (x : T) (r : R) (n : ℕ) : Prop := SetOp.add (single x r n) ∈ H r

/-- Histories with numbered operations whose removes have seen no future adds. -/
structure HistoryInv [DecidableEq R] (H : History T R) : Prop where
  numbered : ∀ r, Numbered r 0 (H r)
  seen : ∀ r op, SetOp.remove op ∈ H r → ∀ r', op.seen.versionAt r' ≤ addCount (H r')

lemma addCount_append (a b : List (SetOp T R)) : addCount (a ++ b) = addCount a + addCount b := by
  induction a with
  | nil => simp [addCount]
  | cons op ops ih =>
    cases op with
    | add set => rw [List.cons_append, addCount, addCount, ih]; omega
    | remove op => rw [List.cons_append, addCount, addCount, ih]

lemma numbered_append {a b : List (SetOp T R)} :
    Numbered r k (a ++ b) ↔ Numbered r k a ∧ Numbered r (k + addCount a) b := by
  induction a generalizing k with
  | nil => simp [Numbered, addCount]
  | cons op ops ih =>
    cases op with
    | add set =>
      have harith : k + 1 + addCount ops = k + (addCount ops + 1) := by omega
      rw [List.cons_append, Numbered, Numbered, ih, addCount, harith, and_assoc]
    | remove op => rw [List.cons_append, Numbered, Numbered, ih, addCount, and_assoc]

lemma Numbered.bounds (h : Numbered r k ops) {set : ORSetCore T R} (hm : add set ∈ ops) :
    ∃ x n, set = single x r n ∧ k < n ∧ n ≤ k + addCount ops := by
  induction ops generalizing k with
  | nil => cases hm
  | cons op ops ih =>
    cases op with
    | add set' =>
      obtain ⟨⟨x, hx⟩, htail⟩ := h
      rw [addCount]
      rcases List.mem_cons.mp hm with e | hm
      · injection e with e
        exact ⟨x, k + 1, e.trans hx, by omega, by omega⟩
      · obtain ⟨y, n, hy, h1, h2⟩ := ih htail hm
        exact ⟨y, n, hy, by omega, by omega⟩
    | remove op =>
      rcases List.mem_cons.mp hm with e | hm
      · cases e
      · exact ih h.2 hm

variable [DecidableEq R] {n : ℕ} {x y : T}

lemma single_inj {m n : ℕ} (h : single x r m = single y r n) : x = y ∧ m = n := by
  constructor
  · have hx : x ∈ (single y r n).elements := by
      rw [← h]
      exact (Finmap.mem_singleton _ _ _).mpr rfl
    exact (Finmap.mem_singleton _ _ _).mp hx
  · have hv := congrArg (fun s => s.versionVector.versionAt r) h
    simpa [single, versionAt_one] using hv

lemma Numbered.dot_bounds (h : Numbered r k ops) {x : T} (hm : add (single x r n) ∈ ops) : k
    < n ∧ n ≤ k + addCount ops := by
  obtain ⟨y, m, he, h1, h2⟩ := h.bounds hm
  obtain ⟨-, rfl⟩ := single_inj he
  exact ⟨h1, h2⟩

lemma Numbered.unique (h : Numbered r k ops) (hx : add (single x r n) ∈ ops)
    (hy : add (single y r n) ∈ ops) : x = y := by
  induction ops generalizing k with
  | nil => cases hx
  | cons op ops ih =>
    cases op with
    | remove op =>
      refine ih h.2 ?_ ?_
      · exact (List.mem_cons.mp hx).resolve_left (by simp)
      · exact (List.mem_cons.mp hy).resolve_left (by simp)
    | add set =>
      obtain ⟨⟨z, rfl⟩, htail⟩ := h
      -- the dot of the first add is smaller than all later ones
      have hlater : ∀ {u : T}, add (single u r n) ∈ ops → k + 1 < n := fun hu =>
        (htail.dot_bounds hu).1
      rcases List.mem_cons.mp hx with ex | hx <;> rcases List.mem_cons.mp hy with ey | hy
      · injection ex with ex
        injection ey with ey
        exact (single_inj (ex.trans ey.symm)).1
      · injection ex with ex
        have := hlater hy
        have := (single_inj ex).2
        omega
      · injection ey with ey
        have := hlater hx
        have := (single_inj ey).2
        omega
      · exact ih htail hx hy

namespace HistoryInv

variable {H : History T R} (hH : HistoryInv H)

include hH

lemma added_bounds {x : T} (h : Added H x r n) : 0 < n ∧ n ≤ addCount (H r) := by
  have := (hH.numbered r).dot_bounds h
  omega

lemma added_unique (hx : Added H x r n) (hy : Added H y r n) : x = y :=
  (hH.numbered r).unique hx hy

end HistoryInv

variable [DecidableEq T]

/-! ## Dots after an operation -/

namespace ORSetCore

/-- The element has the birth dot `(r, n)`. -/
def HasDot (s : ORSetCore T R) (x : T) (r : R) (n : ℕ) : Prop :=
  ∃ dots, s.elements.lookup x = some dots ∧ dots.Has r n

variable {s t : ORSetCore T R} {x y : T} {r : R} {n : ℕ} {op : ORSetRemoveDelta T R} {q : R}

/-- No element is kept without dots. -/
def Inhabited (s : ORSetCore T R) : Prop := ∀ x, s.contains x = true → ∃ r n, s.HasDot x r n

omit [DecidableEq T] in
lemma nonEmpty_eq_some {dots ds : VersionVector R} (h : nonEmpty dots = some ds) :
    ds = dots ∧ ∃ r n, dots.Has r n := by
  unfold nonEmpty at h
  split_ifs at h with he
  refine ⟨(some.inj h).symm, ?_⟩
  by_contra hno
  simp only [not_exists] at hno
  exact he (isEmpty_iff.mpr hno)

omit [DecidableEq R] in
lemma contains_iff : s.contains x = true ↔ ∃ dots, s.elements.lookup x = some dots := by
  rw [contains, isSome_iff_exists]

lemma contains_iff_hasDot (hs : s.Inhabited) : s.contains x = true ↔ ∃ r n, s.HasDot x r n := by
  refine ⟨hs x, ?_⟩
  rintro ⟨r, n, dots, hd, -⟩
  exact contains_iff.mpr ⟨dots, hd⟩

lemma lookup_merge (s t : ORSetCore T R) (x : T) :
    (s.merge t).elements.lookup x =
      match s.elements.lookup x, t.elements.lookup x with
      | some left, some right =>
        nonEmpty (mergeElementDots left right s.versionVector t.versionVector)
      | some left, none => nonEmpty (subtractDominatedDots left t.versionVector)
      | none, some right => nonEmpty (subtractDominatedDots right s.versionVector)
      | none, none => none := by
  refine (lookup_tabulate_union fun h h' => by rw [h, h']).trans ?_
  cases s.elements.lookup x <;> cases t.elements.lookup x <;> rfl

lemma inhabited_merge (s t : ORSetCore T R) : (s.merge t).Inhabited := by
  intro x hx
  obtain ⟨dots, hd⟩ := contains_iff.mp hx
  have hd' := hd
  rw [lookup_merge] at hd
  suffices h : ∃ r n, dots.Has r n by
    obtain ⟨r, n, hn⟩ := h
    exact ⟨r, n, dots, hd', hn⟩
  split at hd
  · obtain ⟨rfl, h⟩ := nonEmpty_eq_some hd; exact h
  · obtain ⟨rfl, h⟩ := nonEmpty_eq_some hd; exact h
  · obtain ⟨rfl, h⟩ := nonEmpty_eq_some hd; exact h
  · cases hd

lemma lookup_mergeAddDelta (s t : ORSetCore T R) (x : T) :
    (s.mergeAddDelta t).elements.lookup x =
      match t.elements.lookup x with
      | none => s.elements.lookup x
      | some addDots =>
        match s.elements.lookup x with
        | some existing =>
          nonEmpty (mergeElementDots existing addDots s.versionVector t.versionVector)
        | none => nonEmpty addDots := by
  refine (lookup_tabulate_union fun h h' => by rw [h, h']).trans ?_
  cases t.elements.lookup x <;> cases s.elements.lookup x <;> rfl

lemma lookup_mergeAddDelta_single (s : ORSetCore T R) (x y : T) (q : R) (k : ℕ) :
    (s.mergeAddDelta (single y q k)).elements.lookup x =
      if x = y then
        match s.elements.lookup y with
        | some dots => nonEmpty (mergeElementDots dots (.one q k) s.versionVector (.one q k))
        | none => nonEmpty (.one q k)
      else s.elements.lookup x := by
  rw [lookup_mergeAddDelta, single]
  rw [lookup_singleton]
  split_ifs with h
  · subst h
    rfl
  · rfl

lemma hasDot_or_of_mergeAddDelta (h : (s.mergeAddDelta t).HasDot x r n) :
    s.HasDot x r n ∨ t.HasDot x r n := by
  obtain ⟨dots, hd, hdot⟩ := h
  rw [lookup_mergeAddDelta] at hd
  cases ht : t.elements.lookup x with
  | none =>
    rw [ht] at hd
    exact .inl ⟨dots, hd, hdot⟩
  | some addDots =>
    cases hs : s.elements.lookup x with
    | none =>
      rw [ht, hs] at hd
      obtain ⟨rfl, -⟩ := nonEmpty_eq_some hd
      exact .inr ⟨_, ht, hdot⟩
    | some existing =>
      rw [ht, hs] at hd
      obtain ⟨rfl, -⟩ := nonEmpty_eq_some hd
      rcases has_mergeElementDots hdot with ⟨h, -⟩ | ⟨h, -⟩
      · exact .inl ⟨existing, hs, h⟩
      · exact .inr ⟨addDots, ht, h⟩

lemma inhabited_mergeAddDelta (hs : s.Inhabited) : (s.mergeAddDelta t).Inhabited := by
  intro x hx
  obtain ⟨dots, hd⟩ := contains_iff.mp hx
  have hd' := hd
  rw [lookup_mergeAddDelta] at hd
  have key : (∃ r n, dots.Has r n) → ∃ r n, (s.mergeAddDelta t).HasDot x r n :=
    fun ⟨r, n, hn⟩ => ⟨r, n, dots, hd', hn⟩
  split at hd
  · obtain ⟨r, n, dots', hd'', hn⟩ := hs x (contains_iff.mpr ⟨dots, hd⟩)
    obtain rfl : dots' = dots := by rw [hd''] at hd; exact some.inj hd
    exact key ⟨r, n, hn⟩
  · split at hd
    all_goals obtain ⟨rfl, h⟩ := nonEmpty_eq_some hd; exact key h

lemma hasDot_mergeRemoveDelta :
    (s.mergeRemoveDelta op).HasDot x r n ↔
      s.HasDot x r n ∧ (x = op.element → ∃ r n, s.HasDot x r n ∧ op.seen.versionAt r < n) := by
  unfold mergeRemoveDelta HasDot
  split_ifs with hdom
  · rw [lookup_erase]
    by_cases hx : x = op.element
    · -- all dots are dominated
      subst hx
      rw [if_pos rfl]
      constructor
      · rintro ⟨_, hd, _⟩
        cases hd
      · rintro ⟨-, hsome⟩
        obtain ⟨r', n', ⟨dots, hd, h'⟩, hlt⟩ := hsome rfl
        rw [hd, any_some, dominates_iff] at hdom
        exact absurd (hdom r' n' h') (not_le_of_gt hlt)
    · rw [if_neg hx]
      exact ⟨fun h => ⟨h, fun e => absurd e hx⟩, And.left⟩
  · refine ⟨fun h => ⟨h, ?_⟩, And.left⟩
    obtain ⟨dots, hd, -⟩ := h
    rintro rfl
    rw [hd, any_some, dominates_iff] at hdom
    push Not at hdom
    obtain ⟨r', n', h', hlt⟩ := hdom
    exact ⟨r', n', ⟨dots, hd, h'⟩, hlt⟩

lemma inhabited_mergeRemoveDelta (hs : s.Inhabited) : (s.mergeRemoveDelta op).Inhabited := by
  intro x hx
  obtain ⟨dots, hd⟩ := contains_iff.mp hx
  have hs' : s.elements.lookup x = some dots := by
    have hd' := hd
    unfold mergeRemoveDelta at hd'
    split_ifs at hd'
    · exact of_lookup_erase hd'
    · exact hd'
  obtain ⟨r, n, dots', hd', hn⟩ := hs x (contains_iff.mpr ⟨dots, hs'⟩)
  obtain rfl : dots' = dots := by rw [hd'] at hs'; exact some.inj hs'
  exact ⟨r, n, dots', hd, hn⟩

/-- The dots after a local add; the counter saturates. -/
lemma hasDot_add_iff :
    (s.add q y).HasDot x r n ↔
      if x = y then r = q ∧ n = min (s.versionVector.versionAt q + 1) u64Max
      else s.HasDot x r n := by
  have hk : (s.versionVector.increment q).versionAt q =
      min (s.versionVector.versionAt q + 1) u64Max := by
    rw [versionAt_increment, if_pos rfl]
  have hmax : 0 < u64Max := by decide
  unfold HasDot
  rw [add, lookup_insert, hk]
  split_ifs with hx
  · constructor
    · rintro ⟨dots, hd, hn⟩
      cases hd
      exact (has_one.mp hn).2
    · exact fun h => ⟨_, rfl, has_one.mpr ⟨by omega, h⟩⟩
  · rfl

lemma hasDot_add (hmax : s.versionVector.versionAt q < u64Max) :
    (s.add q y).HasDot x r n ↔
      if x = y then r = q ∧ n = s.versionVector.versionAt q + 1 else s.HasDot x r n := by
  rw [hasDot_add_iff, min_eq_left hmax]

lemma hasDot_remove : (s.remove y).HasDot x r n ↔ x ≠ y ∧ s.HasDot x r n := by
  unfold HasDot
  rw [remove, lookup_erase]
  by_cases hx : x = y <;> simp [hx]

lemma inhabited_add (hs : s.Inhabited) : (s.add q y).Inhabited := by
  intro x hx
  by_cases hxy : x = y
  · exact ⟨q, _, hasDot_add_iff.mpr (by rw [if_pos hxy]; exact ⟨rfl, rfl⟩)⟩
  · rw [contains, add, lookup_insert, if_neg hxy] at hx
    obtain ⟨r, n, h⟩ := hs x hx
    exact ⟨r, n, hasDot_add_iff.mpr (by rw [if_neg hxy]; exact h)⟩

lemma inhabited_remove (hs : s.Inhabited) : (s.remove y).Inhabited := by
  intro x hx
  rw [contains, remove, lookup_erase] at hx
  split_ifs at hx with hxy
  · cases hx
  · obtain ⟨r, n, h⟩ := hs x hx
    exact ⟨r, n, hasDot_remove.mpr ⟨hxy, h⟩⟩

end ORSetCore

lemma ORSetCore.versionAt_replay_le (s : ORSetCore T R) (op : SetOp T R) (r : R) :
    s.versionVector.versionAt r ≤ (s.replay op).versionVector.versionAt r := by
  cases op with
  | add set | remove op =>
    exact (le_max_left _ _).trans (versionAt_merge _ _ _).symm.le

lemma ORSetCore.versionAt_foldl_le (ops : List (SetOp T R)) (s : ORSetCore T R) (r : R) :
    s.versionVector.versionAt r ≤ (ops.foldl ORSetCore.replay s).versionVector.versionAt r := by
  induction ops generalizing s with
  | nil => exact le_refl _
  | cons op ops ih => exact (s.versionAt_replay_le op r).trans (ih _)

end Kairo.DistributedData
