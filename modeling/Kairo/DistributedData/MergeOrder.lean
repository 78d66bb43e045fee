import Kairo.DistributedData.Counters
import Kairo.DistributedData.ORSetCoverage

/-!
# The order of a replicated data type

A value is below another one when merging it in changes nothing but the pending delta.  Where the
merge of the good values is commutative, associative and idempotent, merging gives upper bounds and
the order is transitive.
-/

namespace Kairo.DistributedData

open Kairo.Lib DeltaReplicatedData RemovedNodePruning

variable {D Δ R : Type*} [DeltaReplicatedData D Δ]

/-- Merging `a` into `b` brings nothing new. -/
def MergeBelow (a b : D) : Prop := merge a b = resetDelta b

instance [DecidableEq D] (a b : D) : Decidable (MergeBelow a b) :=
  inferInstanceAs (Decidable (merge a b = resetDelta b))

/-- The merge of the good values is a join, up to the pending deltas that every merge drops. -/
structure MergeLaws (Good : D → Prop) : Prop where
  good_merge (a b : D) : Good a → Good b → Good (merge a b)
  comm (a b : D) : Good a → Good b → merge a b = merge b a
  assoc (a b c : D) : Good a → Good b → Good c → merge (merge a b) c = merge a (merge b c)
  self (a : D) : Good a → merge a a = resetDelta a
  resetDelta_merge (a b : D) : resetDelta (merge a b) = merge a b
  merge_resetDelta (a b : D) : merge (resetDelta a) b = merge a b

namespace MergeLaws

variable {Good : D → Prop} (laws : MergeLaws Good) {a b c : D}

include laws

lemma below_refl (ha : Good a) : MergeBelow a a := laws.self a ha

lemma below_merge_left (ha : Good a) (hb : Good b) : MergeBelow a (merge a b) := by
  unfold MergeBelow
  rw [← laws.assoc a a b ha ha hb, laws.self a ha, laws.merge_resetDelta, laws.resetDelta_merge]

lemma below_merge_right (ha : Good a) (hb : Good b) : MergeBelow b (merge a b) := by
  rw [laws.comm a b ha hb]
  exact laws.below_merge_left hb ha

lemma below_trans (ha : Good a) (hb : Good b) (hc : Good c) (hab : MergeBelow a b)
    (hbc : MergeBelow b c) : MergeBelow a c := by
  calc merge a c = merge c a := laws.comm a c ha hc
    _ = merge (resetDelta c) a := (laws.merge_resetDelta c a).symm
    _ = merge (merge b c) a := by rw [hbc]
    _ = merge a (merge b c) := laws.comm _ _ (laws.good_merge b c hb hc) ha
    _ = merge (merge a b) c := (laws.assoc _ _ _ ha hb hc).symm
    _ = merge (resetDelta b) c := by rw [hab]
    _ = resetDelta c := by rw [laws.merge_resetDelta, hbc]

end MergeLaws

def CleanupKeeps (R : Type*) [RemovedNodePruning D R] (Good : D → Prop) : Prop :=
  ∀ a (r : R), Good a → Good (pruningCleanup a r)

omit [DeltaReplicatedData D Δ] in
lemma CleanupKeeps.cleanupPerformed [LinearOrder R] [RemovedNodePruning D R] {Good : D → Prop}
    (h : CleanupKeeps R Good) {a : D} (ha : Good a) (t : PruningTable R) :
    Good (cleanupPerformed a t) := by
  have hfold : ∀ (rs : List R) (a : D), Good a → Good (rs.foldl cleanupReplica a) := by
    intro rs
    induction rs with
    | nil => exact fun a ha => ha
    | cons r rs ih =>
      intro a ha
      refine ih _ ?_
      unfold cleanupReplica
      split_ifs
      · exact h a r ha
      · exact ha
  exact hfold _ a ha

/-! ## The data types -/

section

variable [DecidableEq R]

lemma GCounter.mergeLaws : MergeLaws (Positive : GCounter R → Prop) where
  good_merge a _ _ hb := hb.raise a.state
  comm _ _ ha hb := congrArg (GCounter.mk · none) (ha.raise_comm hb)
  assoc a b c _ _ _ := congrArg (GCounter.mk · none) (FinMap.raise_assoc a.state b.state c.state)
  self a _ := congrArg (GCounter.mk · none) (FinMap.raise_self a.state)
  resetDelta_merge _ _ := rfl
  merge_resetDelta _ _ := rfl

theorem PNCounter.merge_isJoin : MergeLaws (Positive : PNCounter R → Prop) where
  good_merge _ _ ha hb := ⟨GCounter.mergeLaws.good_merge _ _ ha.1 hb.1,
    GCounter.mergeLaws.good_merge _ _ ha.2 hb.2⟩
  comm _ _ ha hb := congrArg₂ PNCounter.mk (GCounter.mergeLaws.comm _ _ ha.1 hb.1)
    (GCounter.mergeLaws.comm _ _ ha.2 hb.2)
  assoc _ _ _ ha hb hc := congrArg₂ PNCounter.mk (GCounter.mergeLaws.assoc _ _ _ ha.1 hb.1 hc.1)
    (GCounter.mergeLaws.assoc _ _ _ ha.2 hb.2 hc.2)
  self _ ha := congrArg₂ PNCounter.mk (GCounter.mergeLaws.self _ ha.1)
    (GCounter.mergeLaws.self _ ha.2)
  resetDelta_merge _ _ := rfl
  merge_resetDelta _ _ := rfl

lemma ORSet.mergeLaws {T : Type*} [LinearOrder T] :
    MergeLaws (Valid : ORSet T R → Prop) where
  good_merge _ _ hs ht := ⟨hs.covered.merge ht.covered, hs.wellFormed.merge ht.wellFormed⟩
  comm _ _ hs ht := congrArg (ORSet.mk · none)
    (ORSetCore.merge_comm hs.wellFormed ht.wellFormed hs.covered ht.covered)
  assoc _ _ _ hs ht hu := congrArg (ORSet.mk · none)
    (ORSetCore.merge_assoc hs.wellFormed ht.wellFormed hu.wellFormed hs.covered ht.covered
      hu.covered)
  self _ hs := congrArg (ORSet.mk · none) (ORSetCore.merge_self hs.wellFormed hs.covered)
  resetDelta_merge _ _ := rfl
  merge_resetDelta _ _ := rfl

lemma GCounter.cleanupKeeps : CleanupKeeps R (Positive : GCounter R → Prop) :=
  fun _ r ha => FinMap.Positive.erase ha r

end

end Kairo.DistributedData
