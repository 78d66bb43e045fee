import Kairo.DistributedData.ORSetLaws

/-!
# The operations of observed-remove sets keep their dots covered

Every operation of the set, on covered arguments, gives a covered set, and none writes a zero counter
or leaves an element without dots.  On such sets `merge` is commutative, associative and, up to the
pending delta that a merge drops, idempotent.
-/

namespace Kairo.DistributedData

open Kairo.Lib VersionVector ORSetCore Cluster FinMap ORSet

/-! ## Operations -/

inductive ORSetOperation (T R : Type*)
  | add (replica : R) (x : T)
  | remove (replica : R) (x : T)
  | merge (other : ORSet T R)
  | mergeDelta (d : ORSetDelta T R)
  | prune (removed collapseInto : R)
  | pruningCleanup (removed : R)

section Operations

variable {T R : Type*} [LinearOrder T] [DecidableEq R]

def ORSet.perform (s : ORSet T R) : ORSetOperation T R → ORSet T R
  | .add replica x => s.add replica x
  | .remove replica x => s.remove replica x
  | .merge other => s.merge other
  | .mergeDelta d => s.mergeDelta d
  | .prune removed collapseInto => s.prune removed collapseInto
  | .pruningCleanup removed => s.pruningCleanup removed

def ORSetOperation.Covered : ORSetOperation T R → Prop
  | .merge other => other.Covered
  | .mergeDelta d => ∀ set, SetOp.add set ∈ d.ops → set.Covered
  | _ => True

/-- Every set and every context that the operation brings in is well-formed. -/
def ORSetOperation.WellFormed : ORSetOperation T R → Prop
  | .merge other => other.WellFormed
  | .mergeDelta d => (∀ set, SetOp.add set ∈ d.ops → set.WellFormed) ∧
      ∀ op, SetOp.remove op ∈ d.ops →
        op.removeDot.Positive ∧ ∀ r, op.removeDot.versionAt r ≤ Cluster.u64Max
  | _ => True

end Operations

/-! ## The payload of one add -/

section

variable {T R : Type*} [DecidableEq T] [DecidableEq R] {replica r : R} {version n : ℕ} {key x : T}

lemma hasDot_single :
    (single key replica version).HasDot x r n ↔
      x = key ∧ version ≠ 0 ∧ r = replica ∧ n = version := by
  rw [← has_one]
  constructor
  · rintro ⟨dots, hd, hn⟩
    rw [single, lookup_singleton] at hd
    split_ifs at hd with hx
    cases hd
    exact ⟨hx, hn⟩
  · rintro ⟨rfl, hn⟩
    refine ⟨_, ?_, hn⟩
    rw [single, lookup_singleton, if_pos rfl]

lemma covered_single : (single key replica version).Covered := by
  intro x r n h
  obtain ⟨-, -, rfl, rfl⟩ := hasDot_single.mp h
  have hone := versionAt_one r r n
  rw [if_pos rfl] at hone
  exact hone.ge

lemma wellFormed_single (h0 : version ≠ 0) (hmax : version ≤ u64Max) :
    (single key replica version).WellFormed where
  bounded r := by
    have hone := versionAt_one replica r version
    refine hone.le.trans ?_
    split_ifs
    · exact hmax
    · exact Nat.zero_le _
  positive := positive_one replica version
  dotsPositive x r h := by
    obtain ⟨-, -, -, h⟩ := hasDot_single.mp h
    exact h0 h.symm
  inhabited x hx := by
    obtain ⟨dots, hd⟩ := contains_iff.mp hx
    refine ⟨replica, version, hasDot_single.mpr ⟨?_, h0, rfl, rfl⟩⟩
    rw [single, lookup_singleton] at hd
    split_ifs at hd with h
    exact h

end

/-! ## Local operations and deltas -/

namespace ORSetCore

section Local

variable {T R : Type*} [DecidableEq T] [DecidableEq R] {s t : ORSetCore T R}

lemma Covered.add (hs : s.Covered) (hb : ∀ r, s.versionVector.versionAt r ≤ u64Max)
    (q : R) (y : T) : (s.add q y).Covered := by
  intro x r n h
  rw [hasDot_add_iff] at h
  rw [versionAt_add]
  by_cases hx : x = y
  · rw [if_pos hx] at h
    rw [if_pos h.1, h.2]
  · rw [if_neg hx] at h
    have hle := hs x r n h
    split_ifs with hr
    · subst hr
      have := hb r
      omega
    · exact hle

lemma WellFormed.add (hs : s.WellFormed) (q : R) (y : T) : (s.add q y).WellFormed where
  bounded r := by
    rw [versionAt_add]
    split_ifs
    · exact min_le_right _ _
    · exact hs.bounded r
  positive := hs.positive.increment q
  dotsPositive x r h := by
    have hmax : 0 < u64Max := by decide
    rw [hasDot_add_iff] at h
    split_ifs at h
    · omega
    · exact hs.dotsPositive x r h
  inhabited := inhabited_add hs.inhabited

lemma WellFormed.addAll (hs : s.WellFormed) (q : R) (xs : List T) :
    (s.addAll q xs).WellFormed := by
  induction xs generalizing s with
  | nil => exact hs
  | cons y xs ih => exact ih (hs.add q y)

lemma Covered.remove (hs : s.Covered) (y : T) : (s.remove y).Covered :=
  fun x r n h => hs x r n (hasDot_remove.mp h).2

lemma WellFormed.remove (hs : s.WellFormed) (y : T) : (s.remove y).WellFormed where
  bounded := hs.bounded
  positive := hs.positive
  dotsPositive x r h := hs.dotsPositive x r (hasDot_remove.mp h).2
  inhabited := inhabited_remove hs.inhabited

lemma Covered.mergeAddDelta (hs : s.Covered) (ht : t.Covered) : (s.mergeAddDelta t).Covered := by
  intro x r n h
  have hvv := VersionVector.versionAt_merge s.versionVector t.versionVector r
  have hle : n ≤ max (s.versionVector.versionAt r) (t.versionVector.versionAt r) := by
    rcases hasDot_or_of_mergeAddDelta h with h | h
    · exact le_max_of_le_left (hs x r n h)
    · exact le_max_of_le_right (ht x r n h)
  exact hle.trans hvv.symm.le

lemma WellFormed.mergeAddDelta (hs : s.WellFormed) (ht : t.WellFormed) :
    (s.mergeAddDelta t).WellFormed where
  bounded r := by
    have hvv := VersionVector.versionAt_merge s.versionVector t.versionVector r
    exact hvv.le.trans (max_le (hs.bounded r) (ht.bounded r))
  positive := ht.positive.merge _
  dotsPositive x r h :=
    (hasDot_or_of_mergeAddDelta h).elim (hs.dotsPositive x r) (ht.dotsPositive x r)
  inhabited := inhabited_mergeAddDelta hs.inhabited

variable {op : ORSetRemoveDelta T R} {ops : List (SetOp T R)}

lemma Covered.mergeRemoveDelta (hs : s.Covered) : (s.mergeRemoveDelta op).Covered := by
  intro x r n h
  have hvv := VersionVector.versionAt_merge s.versionVector op.removeDot r
  have hle := hs x r n (hasDot_mergeRemoveDelta.mp h).1
  exact (hle.trans (le_max_left _ _)).trans hvv.symm.le

lemma WellFormed.mergeRemoveDelta (hs : s.WellFormed) (hop : op.removeDot.Positive)
    (hb : ∀ r, op.removeDot.versionAt r ≤ u64Max) : (s.mergeRemoveDelta op).WellFormed where
  bounded r := by
    have hvv := VersionVector.versionAt_merge s.versionVector op.removeDot r
    exact hvv.le.trans (max_le (hs.bounded r) (hb r))
  positive := hop.merge _
  dotsPositive x r h := hs.dotsPositive x r (hasDot_mergeRemoveDelta.mp h).1
  inhabited := inhabited_mergeRemoveDelta hs.inhabited

lemma Covered.replay (hs : s.Covered) (hops : ∀ set, SetOp.add set ∈ ops → set.Covered) :
    (ops.foldl replay s).Covered := by
  refine List.foldlRecOn ops _ (motive := Covered) hs fun s hs op hop => ?_
  cases op with
  | add set => exact hs.mergeAddDelta (hops set hop)
  | remove op => exact hs.mergeRemoveDelta

lemma WellFormed.replay (hs : s.WellFormed) (hadd : ∀ set, SetOp.add set ∈ ops → set.WellFormed)
    (hremove : ∀ op, SetOp.remove op ∈ ops →
      op.removeDot.Positive ∧ ∀ r, op.removeDot.versionAt r ≤ u64Max) :
    (ops.foldl replay s).WellFormed := by
  refine List.foldlRecOn ops _ (motive := WellFormed) hs fun s hs op hop => ?_
  cases op with
  | add set => exact hs.mergeAddDelta (hadd set hop)
  | remove op =>
    obtain ⟨hpos, hb⟩ := hremove op hop
    exact hs.mergeRemoveDelta hpos hb

end Local

/-! ## Pruning -/

section

variable {T R : Type*} [LinearOrder T] [DecidableEq R] {s : ORSetCore T R} {removed r : R}

lemma versionAt_pruneBase_le (removed collapseInto : R) :
    (s.pruneBase removed collapseInto).versionVector.versionAt collapseInto ≤ u64Max := by
  have h := versionAt_prune s.versionVector removed collapseInto collapseInto
  rw [if_pos rfl] at h
  exact h.le.trans (min_le_right _ _)

lemma versionAt_le_pruneBase (hb : ∀ r, s.versionVector.versionAt r ≤ u64Max) (hr : r ≠ removed)
    (collapseInto : R) :
    s.versionVector.versionAt r ≤ (s.pruneBase removed collapseInto).versionVector.versionAt r := by
  have h := versionAt_prune s.versionVector removed collapseInto r
  have hle := hb r
  have : s.versionVector.versionAt r ≤ (s.versionVector.prune removed collapseInto).versionAt r := by
    rw [h]
    split_ifs with h1 h2
    · exact absurd (h1.trans h2) hr
    · rw [← h1]
      omega
    · exact le_rfl
  exact this

lemma hasDot_prune (s : ORSetCore T R) (removed collapseInto : R) (x : T) :
    (x ∈ s.touched removed ∧ ∃ k,
      min ((s.pruneBase removed collapseInto).versionVector.versionAt collapseInto + 1)
        u64Max ≤ k ∧
      k ≤ (s.prune removed collapseInto).versionVector.versionAt collapseInto ∧
      ∀ r n, (s.prune removed collapseInto).HasDot x r n ↔ r = collapseInto ∧ n = k) ∨
    x ∉ s.touched removed ∧
      ∀ r n, (s.prune removed collapseInto).HasDot x r n ↔ s.HasDot x r n := by
  by_cases hx : x ∈ s.touched removed
  · refine .inl ⟨hx, hasDot_addAll_of_mem (mem_ordered.mpr hx) ?_⟩
    exact versionAt_pruneBase_le removed collapseInto
  · refine .inr ⟨hx, fun r n => ?_⟩
    rw [prune, hasDot_addAll_of_notMem (fun h => hx (mem_ordered.mp h)),
      hasDot_pruneBase_of_notMem hx]

lemma versionAt_le_prune (hb : ∀ r, s.versionVector.versionAt r ≤ u64Max) (hr : r ≠ removed)
    (collapseInto : R) :
    s.versionVector.versionAt r ≤ (s.prune removed collapseInto).versionVector.versionAt r := by
  refine (versionAt_le_pruneBase hb hr collapseInto).trans ?_
  by_cases hc : r = collapseInto
  · subst hc
    exact versionAt_le_addAll (versionAt_pruneBase_le removed r) _
  · rw [prune, versionAt_addAll_of_ne hc]

lemma Covered.prune (hs : s.Covered) (hb : ∀ r, s.versionVector.versionAt r ≤ u64Max)
    (removed collapseInto : R) : (s.prune removed collapseInto).Covered := by
  intro x r n h
  rcases hasDot_prune s removed collapseInto x with ⟨-, k, -, hle, hdots⟩ | ⟨hx, hdots⟩
  · obtain ⟨rfl, rfl⟩ := (hdots r n).mp h
    exact hle
  · have hdot := (hdots r n).mp h
    have hr : r ≠ removed := by
      rintro rfl
      exact hx (mem_touched.mpr ⟨n, hdot⟩)
    exact (hs x r n hdot).trans (versionAt_le_prune hb hr collapseInto)

lemma WellFormed.pruneBase (hs : s.WellFormed) (removed collapseInto : R) :
    (s.pruneBase removed collapseInto).WellFormed where
  bounded r := by
    by_cases hc : r = collapseInto
    · subst hc
      exact versionAt_pruneBase_le removed r
    · have h := versionAt_prune s.versionVector removed collapseInto r
      rw [if_neg hc] at h
      refine h.le.trans ?_
      split_ifs
      · exact Nat.zero_le _
      · exact hs.bounded r
  positive := hs.positive.prune removed collapseInto
  dotsPositive x r h := by
    obtain ⟨dots', hd', hn⟩ := h
    rw [lookup_pruneBase, Option.map_eq_some_iff] at hd'
    obtain ⟨dots, hd, rfl⟩ := hd'
    have hdots : dots.Positive := fun r h => hs.dotsPositive x r ⟨dots, hd, h⟩
    split_ifs at hn
    · exact hdots.prune removed collapseInto r hn
    · exact hdots r hn
  inhabited x hx := by
    rw [contains_pruneBase] at hx
    obtain ⟨r, n, dots, hd, hn⟩ := hs.inhabited x hx
    have hlookup := lookup_pruneBase s removed collapseInto x
    rw [hd, Option.map_some] at hlookup
    split_ifs at hlookup
    · exact ⟨collapseInto, _, _, hlookup, has_increment.mpr (by rw [if_pos rfl])⟩
    · exact ⟨r, n, dots, hlookup, hn⟩

lemma Covered.pruningCleanup (hs : s.Covered) (removed : R) :
    (s.pruningCleanup removed).Covered := by
  intro x r n h
  obtain ⟨hne, hdot⟩ := hasDot_pruningCleanup.mp h
  have hvv := s.versionVector.versionAt_pruningCleanup removed r
  rw [if_neg hne] at hvv
  exact (hs x r n hdot).trans hvv.symm.le

lemma WellFormed.pruningCleanup (hs : s.WellFormed) (removed : R) :
    (s.pruningCleanup removed).WellFormed where
  bounded r := by
    have hvv := s.versionVector.versionAt_pruningCleanup removed r
    refine hvv.le.trans ?_
    split_ifs
    · exact Nat.zero_le _
    · exact hs.bounded r
  positive := hs.positive.pruningCleanup removed
  dotsPositive x r h := hs.dotsPositive x r (hasDot_pruningCleanup.mp h).2
  inhabited := inhabited_pruningCleanup

end

end ORSetCore

/-! ## Every operation -/

namespace ORSet

variable {T R : Type*} [LinearOrder T] [DecidableEq R] {s : ORSet T R}

lemma covered_perform (hs : s.Covered) (hb : ∀ r, s.versionVector.versionAt r ≤ u64Max)
    (op : ORSetOperation T R) (hop : op.Covered) : (s.perform op).Covered := by
  cases op with
  | add replica x => exact hs.add hb replica x
  | remove replica x =>
    rw [perform, remove]
    split_ifs
    · exact ORSetCore.Covered.remove hs x
    · exact hs
  | merge other => exact ORSetCore.Covered.merge hs hop
  | mergeDelta d =>
    rw [perform, mergeDelta_eq_foldl]
    exact hs.replay hop
  | prune removed collapseInto =>
    rw [perform, toORSetCore_prune]
    exact ORSetCore.Covered.prune hs hb removed collapseInto
  | pruningCleanup removed => exact ORSetCore.Covered.pruningCleanup hs removed

lemma wellFormed_perform (hs : s.WellFormed) (op : ORSetOperation T R) (hop : op.WellFormed) :
    (s.perform op).WellFormed := by
  cases op with
  | add replica x => exact hs.add replica x
  | remove replica x =>
    rw [perform, remove]
    split_ifs
    · exact ORSetCore.WellFormed.remove hs x
    · exact hs
  | merge other => exact ORSetCore.WellFormed.merge hs hop
  | mergeDelta d =>
    rw [perform, mergeDelta_eq_foldl]
    exact hs.replay hop.1 hop.2
  | prune removed collapseInto =>
    rw [perform, toORSetCore_prune]
    exact (hs.pruneBase removed collapseInto).addAll collapseInto _
  | pruningCleanup removed => exact ORSetCore.WellFormed.pruningCleanup hs removed

/-- Covered dots in a well-formed representation. -/
structure Valid (s : ORSet T R) : Prop where
  covered : s.Covered
  wellFormed : s.WellFormed

lemma valid_new : (new : ORSet T R).Valid where
  covered x r n h := by
    obtain ⟨dots, hd, -⟩ := h
    cases hd
  wellFormed := by
    refine ⟨fun r => Nat.zero_le _, positive_new, fun x r h => ?_, fun x hx => ?_⟩
    · obtain ⟨dots, hd, -⟩ := h
      cases hd
    · cases hx

lemma Valid.perform (hs : s.Valid) (op : ORSetOperation T R) (hcovered : op.Covered)
    (hop : op.WellFormed) : (s.perform op).Valid :=
  ⟨covered_perform hs.covered hs.wellFormed.bounded op hcovered, wellFormed_perform hs.wellFormed op
    hop⟩

lemma Valid.prune (hs : s.Valid) (removed collapseInto : R) : (s.prune removed collapseInto).Valid :=
  hs.perform (.prune removed collapseInto) trivial trivial

lemma Valid.merge {t : ORSet T R} (hs : s.Valid) (ht : t.Valid) : (s.merge t).Valid :=
  hs.perform (.merge t) ht.covered ht.wellFormed

lemma contains_prune {removed collapseInto : R} {x : T} : (s.prune removed collapseInto).contains
    x = true ↔ s.contains x = true := by
  have hcore := s.toORSetCore_prune removed collapseInto
  rw [hcore, ORSetCore.prune, ORSetCore.contains_addAll, ORSetCore.contains_pruneBase,
    mem_ordered, mem_touched]
  refine ⟨fun h => h.elim ?_ id, .inr⟩
  rintro ⟨n, dots, hd, -⟩
  exact contains_iff.mpr ⟨dots, hd⟩

/-- **The merge of valid sets is commutative, associative and, up to the pending delta, idempotent; its
dots are the common ones and those of one side that the other does not cover; and every operation
keeps coverage and the representation.** -/
theorem merge_laws :
    (∀ s t : ORSet T R, s.Valid → t.Valid → s.merge t = t.merge s) ∧
    (∀ s t u : ORSet T R, s.Valid → t.Valid → u.Valid →
      (s.merge t).merge u = s.merge (t.merge u)) ∧
    (∀ s : ORSet T R, s.Valid → s.merge s = s.resetDelta) ∧
    (∀ (s : ORSet T R) (op : ORSetOperation T R),
      (∀ r, s.versionVector.versionAt r ≤ Cluster.u64Max) → s.Covered → op.Covered →
        (s.perform op).Covered) ∧
    (∀ (s : ORSet T R) (op : ORSetOperation T R), s.WellFormed → op.WellFormed →
      (s.perform op).WellFormed) ∧
    ∀ s t : ORSet T R, s.Valid → t.Valid → ∀ x r n, (s.merge t).HasDot x r n ↔
      s.HasDot x r n ∧ t.HasDot x r n ∨ s.HasDot x r n ∧ t.versionVector.versionAt r < n ∨
        t.HasDot x r n ∧ s.versionVector.versionAt r < n := by
  refine ⟨fun s t hs ht => ?_, fun s t u hs ht hu => ?_, fun s hs => ?_,
    fun s op hb hs hop => covered_perform hs hb op hop, fun s op hs hop => wellFormed_perform hs op hop,
    fun s t hs ht x r n => hasDot_merge_iff hs.covered ht.covered hs.wellFormed.dotsPositive⟩
  · rw [merge, merge, merge_comm hs.wellFormed ht.wellFormed hs.covered ht.covered]
  · unfold merge
    rw [merge_assoc hs.wellFormed ht.wellFormed hu.wellFormed hs.covered ht.covered hu.covered]
  · rw [merge, merge_self hs.wellFormed hs.covered]
    rfl

end ORSet

/-! ## A decoded zero counter -/

namespace ZeroCounter

/-- A set as it is decoded from a message in which the counter of a dot is zero. -/
def decoded : ORSet ℕ ℕ := ⟨⟨Finmap.singleton 7 ⟨Finmap.singleton 0 0⟩, .new⟩, none⟩

def added : ORSet ℕ ℕ := ORSet.new.add 1 7

lemma valid_added : added.Valid := valid_new.perform (.add 1 7) trivial trivial

lemma covered_decoded : decoded.Covered := by
  rintro x r n ⟨dots, hd, hn⟩
  have hdots : dots = ⟨Finmap.singleton 0 0⟩ := by
    have h := lookup_singleton 7 x (⟨Finmap.singleton 0 0⟩ : VersionVector ℕ)
    rw [show decoded.elements.lookup x = _ from h] at hd
    split_ifs at hd
    exact (Option.some.inj hd).symm
  rw [hdots, VersionVector.Has, lookup_singleton] at hn
  split_ifs at hn
  cases hn
  exact Nat.zero_le _

/-- The merge with a zero counter depends on the order, and a merge with itself drops the pending delta
of a set. -/
theorem merge_not_lawful :
    decoded.Covered ∧ added.Covered ∧ decoded.merge added ≠ added.merge decoded ∧
      added.merge added ≠ added :=
  ⟨covered_decoded, valid_added.covered, by decide +kernel, by decide +kernel⟩

/-- The other replica adds the element as well, and then removes it. -/
def concurrent : ORSet ℕ ℕ := ORSet.new.perform (.add 0 7)

def removed : ORSet ℕ ℕ := concurrent.perform (.remove 0 7)

/-- The laws on sets with concurrent adds of one element and a remove that has seen one of them. -/
theorem merge_laws_added :
    added.merge concurrent = concurrent.merge added ∧
      (added.merge concurrent).merge removed = added.merge (concurrent.merge removed) ∧
      added.merge added = added.resetDelta ∧ (added.perform (.prune 1 0)).Covered ∧
      ((added.merge concurrent).merge removed).HasDot 7 1 1 := by
  have hc : concurrent.Valid := valid_new.perform (.add 0 7) trivial trivial
  have hr : removed.Valid := hc.perform (.remove 0 7) trivial trivial
  obtain ⟨hcomm, hassoc, hself, hcovered, -, hdots⟩ := merge_laws (T := ℕ) (R := ℕ)
  refine ⟨hcomm _ _ valid_added hc, hassoc _ _ _ valid_added hc hr, hself _ valid_added,
    hcovered added (.prune 1 0) valid_added.wellFormed.bounded valid_added.covered trivial, ?_⟩
  refine (hdots _ _ (valid_added.merge hc) hr 7 1 1).mpr (.inr (.inl ⟨?_, by decide +kernel⟩))
  exact (hdots _ _ valid_added hc 7 1 1).mpr (.inr (.inl ⟨⟨_, rfl, rfl⟩, by decide +kernel⟩))

end ZeroCounter

end Kairo.DistributedData
