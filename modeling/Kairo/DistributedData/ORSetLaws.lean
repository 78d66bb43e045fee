import Kairo.Lib.DotStore
import Kairo.DistributedData.ORSetPruning
import Kairo.DistributedData.Replicator

/-!
# The merge of observed-remove sets

A set whose dots are covered by its causal context is, element by element, a dot store: the dots of
the element are alive among the dots that the context covers (`view`).  The merge of sets is the merge
of dot stores (`view_merge`), and a set is determined by its dots and its context
(`ext_of_hasDot`), so the laws of dot stores carry over.
-/

namespace Kairo.DistributedData

open Kairo.Lib Option VersionVector

variable {T R : Type*} [DecidableEq T] [DecidableEq R] {v w : VersionVector R}

/-! ## Version vectors as functions -/

namespace VersionVector

lemma ext_has (h : ∀ r n, v.Has r n ↔ w.Has r n) : v = w := by
  suffices he : v.entries = w.entries by
    cases v
    cases w
    exact congrArg _ he
  exact Finmap.ext_lookup fun r => ext fun n => h r n

lemma Positive.ext (hv : v.Positive) (hw : w.Positive) (h : ∀ r, v.versionAt r = w.versionAt r) :
    v = w := by
  have he : v.entries = w.entries := FinMap.Positive.ext hv hw h
  cases v
  cases w
  exact congrArg _ he

end VersionVector

namespace ORSetCore

/-! ## Valid sets -/

/-- Every dot is covered by the causal context. -/
def Covered (s : ORSetCore T R) : Prop := ∀ x r n, s.HasDot x r n → n ≤ s.versionVector.versionAt r

/-- The representation that the operations keep: no counter is zero or above 64 bits, and no element is
without dots. -/
structure WellFormed (s : ORSetCore T R) : Prop where
  bounded : ∀ r, s.versionVector.versionAt r ≤ Cluster.u64Max
  positive : s.versionVector.Positive
  dotsPositive : ∀ x r, ¬ s.HasDot x r 0
  inhabited : s.Inhabited

/-- A set is determined by its dots and its context. -/
lemma ext_of_hasDot {s t : ORSetCore T R} (hs : s.Inhabited) (ht : t.Inhabited)
    (hsv : s.versionVector.Positive) (htv : t.versionVector.Positive)
    (hdots : ∀ x r n, s.HasDot x r n ↔ t.HasDot x r n)
    (hvv : ∀ r, s.versionVector.versionAt r = t.versionVector.versionAt r) : s = t := by
  have hcontext := hsv.ext htv hvv
  have hno : ∀ {s t : ORSetCore T R}, s.Inhabited → (∀ x r n, s.HasDot x r n ↔ t.HasDot x r n) →
      ∀ {x dots}, s.elements.lookup x = some dots → t.elements.lookup x ≠ none := by
    intro s t hs hdots x dots hx hnone
    obtain ⟨r, n, h⟩ := hs x (contains_iff.mpr ⟨dots, hx⟩)
    obtain ⟨dots', hd, -⟩ := (hdots x r n).mp h
    rw [hnone] at hd
    cases hd
  have helements : s.elements = t.elements := by
    refine Finmap.ext_lookup fun x => ?_
    cases hx : s.elements.lookup x with
    | none =>
      cases hy : t.elements.lookup x with
      | none => rfl
      | some dots => exact absurd hx (hno ht (fun x r n => (hdots x r n).symm) hy)
    | some dots =>
      cases hy : t.elements.lookup x with
      | none => exact absurd hy (hno hs hdots hx)
      | some dots' =>
        refine congrArg some (ext_has fun r n => ?_)
        have h := hdots x r n
        simpa [HasDot, hx, hy] using h
  cases s
  cases t
  simp_all

/-! ## Dots of a merge -/

variable {n : ℕ} {r : R} {x : T}

lemma has_mergeElementDots_iff {left right leftContext rightContext : VersionVector R}
    (hl : ∀ r n, left.Has r n → n ≠ 0 ∧ n ≤ leftContext.versionAt r)
    (hr : ∀ r n, right.Has r n → n ≤ rightContext.versionAt r) :
    (mergeElementDots left right leftContext rightContext).Has r n ↔
      left.Has r n ∧ right.Has r n ∨ left.Has r n ∧ rightContext.versionAt r < n ∨
        right.Has r n ∧ leftContext.versionAt r < n := by
  constructor
  · intro h
    rcases has_mergeElementDots h with ⟨h, heq | hlt⟩ | h
    · refine .inl ⟨h, ?_⟩
      rw [versionAt, FinMap.count] at heq
      cases hv : right.entries.lookup r with
      | none => rw [hv, getD_none] at heq; exact absurd heq.symm (hl r n h).1
      | some m => rw [hv, getD_some] at heq; rw [VersionVector.Has, hv, heq]
    · exact .inr (.inl ⟨h, hlt⟩)
    · exact .inr (.inr h)
  · intro h
    rw [VersionVector.Has, lookup_mergeElementDots]
    -- a right dot that the left side has not seen wins; otherwise the left entry decides
    rcases h with ⟨h, h'⟩ | ⟨h, hlt⟩ | ⟨h, hlt⟩
    · have hnone : (right.entries.lookup r).filter (fun v => decide (leftContext.versionAt r < v)) =
          none := by
        have := (hl r n h).2
        rw [h', filter_eq_none_iff]
        intro m hm
        cases hm
        simpa using this
      rw [hnone, none_or, filter_eq_some_iff]
      exact ⟨h, by simp [h'.versionAt]⟩
    · have hnone : (right.entries.lookup r).filter (fun v => decide (leftContext.versionAt r < v)) =
          none := by
        rw [filter_eq_none_iff]
        intro m hm
        have h1 := hr r m hm
        have h2 := (hl r n h).2
        rw [decide_eq_true_iff]
        omega
      rw [hnone, none_or, filter_eq_some_iff]
      exact ⟨h, by simp [hlt]⟩
    · rw [h, filter_some_pos (by simpa using hlt), some_or]

lemma hasDot_of_nonEmpty {s : ORSetCore T R} {dots : VersionVector R}
    (h : s.elements.lookup x = nonEmpty dots) : s.HasDot x r n ↔ dots.Has r n := by
  constructor
  · rintro ⟨dots', hd, hn⟩
    rw [h] at hd
    obtain ⟨rfl, -⟩ := nonEmpty_eq_some hd
    exact hn
  · intro hn
    refine ⟨dots, ?_, hn⟩
    rw [h, nonEmpty, if_neg]
    exact fun he => isEmpty_iff.mp he r n hn

variable {s t u : ORSetCore T R}

/-- The dots after a merge are the common ones, and those of one side that the other does not cover. -/
lemma hasDot_merge_iff (hs : s.Covered) (ht : t.Covered) (hs0 : ∀ x r, ¬ s.HasDot x r 0) :
    (s.merge t).HasDot x r n ↔
      s.HasDot x r n ∧ t.HasDot x r n ∨ s.HasDot x r n ∧ t.versionVector.versionAt r < n ∨
        t.HasDot x r n ∧ s.versionVector.versionAt r < n := by
  have hlookup := lookup_merge s t x
  have hnone : ∀ {s : ORSetCore T R}, s.elements.lookup x = none → ¬ s.HasDot x r n := by
    rintro s h ⟨dots, hd, -⟩
    rw [h] at hd
    cases hd
  have hsome : ∀ {s : ORSetCore T R} {dots : VersionVector R}, s.elements.lookup x = some dots →
      ∀ {r n}, s.HasDot x r n ↔ dots.Has r n := by
    intro s dots h r n
    simp [HasDot, h]
  cases hl : s.elements.lookup x with
  | none =>
    have hsn := hnone hl
    cases hr : t.elements.lookup x with
    | none =>
      have htn := hnone hr
      rw [hl, hr] at hlookup
      have hmn := hnone hlookup
      tauto
    | some right =>
      rw [hl, hr] at hlookup
      rw [hasDot_of_nonEmpty hlookup, has_subtractDominatedDots, hsome hr]
      tauto
  | some left =>
    cases hr : t.elements.lookup x with
    | none =>
      have htn := hnone hr
      rw [hl, hr] at hlookup
      rw [hasDot_of_nonEmpty hlookup, has_subtractDominatedDots, hsome hl]
      tauto
    | some right =>
      rw [hl, hr] at hlookup
      rw [hasDot_of_nonEmpty hlookup, has_mergeElementDots_iff, hsome hl, hsome hr]
      · intro r n h
        refine ⟨?_, hs x r n ((hsome hl).mpr h)⟩
        rintro rfl
        exact hs0 x r ((hsome hl).mpr h)
      · exact fun r n h => ht x r n ((hsome hr).mpr h)

lemma hasDot_mergeAddDelta_iff (hs : s.Covered) (hs0 : ∀ x r, ¬ s.HasDot x r 0) {x y : T} {q r : R}
    {k n : ℕ} (hk : k ≠ 0) :
    (s.mergeAddDelta (single y q k)).HasDot x r n ↔
      if x = y then s.HasDot x r n ∧ (r = q → k ≤ n) ∨
        (r = q ∧ n = k) ∧ (s.contains x = true → s.versionVector.versionAt q < k)
      else s.HasDot x r n := by
  have hlookup := lookup_mergeAddDelta_single s x y q k
  split_ifs with hx
  · subst hx
    rw [if_pos rfl] at hlookup
    cases hl : s.elements.lookup x with
    | none =>
      rw [hl] at hlookup
      rw [hasDot_of_nonEmpty hlookup, has_one]
      simp [HasDot, contains, hl, hk]
    | some dots =>
      rw [hl] at hlookup
      have hdots : ∀ {r n}, s.HasDot x r n ↔ dots.Has r n := by simp [HasDot, hl]
      have hpos : ∀ r n, dots.Has r n → n ≠ 0 ∧ n ≤ s.versionVector.versionAt r := fun r n h =>
        ⟨fun e => hs0 x r (hdots.mpr (e ▸ h)), hs x r n (hdots.mpr h)⟩
      have hn := hpos r n
      rw [hasDot_of_nonEmpty hlookup, has_mergeElementDots_iff hpos fun r n h => h.versionAt.ge,
        has_one, versionAt_one, hdots]
      simp only [contains, hl, isSome_some, true_imp_iff]
      grind
  · rw [if_neg hx] at hlookup
    unfold HasDot
    rw [hlookup]

/-- Without any condition, no dot of a merge is new. -/
lemma hasDot_or_of_merge (h : (s.merge t).HasDot x r n) : s.HasDot x r n ∨ t.HasDot x r n := by
  obtain ⟨dots, hd, hdot⟩ := h
  rw [lookup_merge] at hd
  split at hd
  · rename_i left right hl hr
    obtain ⟨rfl, -⟩ := nonEmpty_eq_some hd
    rcases has_mergeElementDots hdot with ⟨h, -⟩ | ⟨h, -⟩
    · exact .inl ⟨left, hl, h⟩
    · exact .inr ⟨right, hr, h⟩
  · rename_i left hl hr
    obtain ⟨rfl, -⟩ := nonEmpty_eq_some hd
    exact .inl ⟨left, hl, (has_subtractDominatedDots.mp hdot).1⟩
  · rename_i right hl hr
    obtain ⟨rfl, -⟩ := nonEmpty_eq_some hd
    exact .inr ⟨right, hr, (has_subtractDominatedDots.mp hdot).1⟩
  · cases hd

lemma versionAt_merge (s t : ORSetCore T R) (r : R) :
    (s.merge t).versionVector.versionAt r =
      max (s.versionVector.versionAt r) (t.versionVector.versionAt r) :=
  VersionVector.versionAt_merge _ _ _

lemma Covered.merge (hs : s.Covered) (ht : t.Covered) : (s.merge t).Covered := by
  intro x r n h
  rw [versionAt_merge]
  rcases hasDot_or_of_merge h with h | h
  · exact le_max_of_le_left (hs x r n h)
  · exact le_max_of_le_right (ht x r n h)

lemma WellFormed.merge (hs : s.WellFormed) (ht : t.WellFormed) : (s.merge t).WellFormed where
  bounded r := by
    rw [versionAt_merge]
    exact max_le (hs.bounded r) (ht.bounded r)
  positive := ht.positive.merge _
  dotsPositive x r h := (hasDot_or_of_merge h).elim (hs.dotsPositive x r) (ht.dotsPositive x r)
  inhabited := inhabited_merge s t

/-! ## Sets as dot stores -/

/-- The dots of one element, among those that the context covers. -/
def view (s : ORSetCore T R) (hs : s.Covered) (x : T) : DotStore (R × ℕ) where
  alive := {d | s.HasDot x d.1 d.2}
  seen := {d | d.2 ≤ s.versionVector.versionAt d.1}
  alive_subset d h := hs x d.1 d.2 h

/-- **The merge of sets is the join of dot stores.** -/
theorem view_merge (hs : s.Covered) (ht : t.Covered) (hs0 : ∀ x r, ¬ s.HasDot x r 0) (x : T) :
    (s.merge t).view (hs.merge ht) x = s.view hs x ⊔ t.view ht x := by
  rw [DotStore.sup_eq_merge]
  refine DotStore.ext (Set.ext fun d => ?_) (Set.ext fun d => ?_)
  · rw [DotStore.mem_alive_merge]
    refine (hasDot_merge_iff hs ht hs0).trans ?_
    simp only [view, Set.mem_ofPred_eq, not_le]
  · rw [DotStore.mem_seen_merge]
    simp only [view, Set.mem_ofPred_eq, versionAt_merge, le_max_iff]

lemma eq_of_view_eq (hs : s.WellFormed) (ht : t.WellFormed) (hsc : s.Covered) (htc : t.Covered)
    (hview : ∀ x, s.view hsc x = t.view htc x)
    (hvv : ∀ r, s.versionVector.versionAt r = t.versionVector.versionAt r) : s = t := by
  refine ext_of_hasDot hs.inhabited ht.inhabited hs.positive ht.positive (fun x r n => ?_) hvv
  have h := congrArg (fun v => (r, n) ∈ v.alive) (hview x)
  exact Iff.of_eq h

section Laws

variable (hs : s.WellFormed) (ht : t.WellFormed) (hu : u.WellFormed) (hsc : s.Covered)
  (htc : t.Covered) (huc : u.Covered)

include hs ht hsc htc

lemma merge_comm : s.merge t = t.merge s := by
  refine eq_of_view_eq (hs.merge ht) (ht.merge hs) (hsc.merge htc) (htc.merge hsc) (fun x => ?_)
    fun r => ?_
  · rw [view_merge hsc htc hs.dotsPositive, view_merge htc hsc ht.dotsPositive, sup_comm]
  · rw [versionAt_merge, versionAt_merge, max_comm]

include hu huc

lemma merge_assoc : (s.merge t).merge u = s.merge (t.merge u) := by
  refine eq_of_view_eq ((hs.merge ht).merge hu) (hs.merge (ht.merge hu))
    ((hsc.merge htc).merge huc) (hsc.merge (htc.merge huc)) (fun x => ?_) fun r => ?_
  · rw [view_merge (hsc.merge htc) huc (hs.merge ht).dotsPositive,
      view_merge hsc htc hs.dotsPositive, view_merge hsc (htc.merge huc) hs.dotsPositive,
      view_merge htc huc ht.dotsPositive, sup_assoc]
  · simp only [versionAt_merge, max_assoc]

end Laws

lemma merge_self (hs : s.WellFormed) (hsc : s.Covered) : s.merge s = s := by
  refine eq_of_view_eq (hs.merge hs) hs (hsc.merge hsc) hsc (fun x => ?_) fun r => ?_
  · rw [view_merge hsc hsc hs.dotsPositive, sup_idem]
  · rw [versionAt_merge, max_self]

end ORSetCore

end Kairo.DistributedData
