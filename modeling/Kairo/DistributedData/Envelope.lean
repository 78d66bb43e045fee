import Kairo.DistributedData.Pruning
import Kairo.DistributedData.Replicator

/-!
# Data envelopes

A value together with the markers of the replicas that are being removed from it.  The plain `merge`
joins values and markers; `mergePruned` and `mergeDeltaPruned` also let obsolete markers expire and
clean the values of every replica whose pruning has been performed.
-/

namespace Kairo.DistributedData

open Kairo.Lib DeltaReplicatedData RemovedNodePruning List Finset

structure DataEnvelope (D R : Type*) where
  data : D
  pruning : PruningTable R
  deriving DecidableEq

namespace PruningTable

variable {R : Type*} [LinearOrder R] {t : PruningTable R}

def performed (t : PruningTable R) : Finset R :=
  t.states.keys.filter fun r => (t.get r).any (·.isPerformed)

lemma mem_performed {r : R} : r ∈ t.performed ↔ ∃ m, t.get r = some (.performed m) := by
  rw [performed, Finset.mem_filter, mem_keys]
  cases h : t.get r with
  | none => simp
  | some m => cases m <;> simp [PruningState.isPerformed]

end PruningTable

variable {D Δ R : Type*} [LinearOrder R] [DeltaReplicatedData D Δ] [RemovedNodePruning D R] {a : D}

/-- Drops the contribution of a replica, if there is one. -/
def cleanupReplica (data : D) (removed : R) : D :=
  if needPruningFrom data removed then pruningCleanup data removed else data

/-- Cleans the value of every replica whose pruning has been performed. -/
def cleanupPerformed (data : D) (pruning : PruningTable R) : D :=
  (ordered pruning.performed).foldl cleanupReplica data

namespace DataEnvelope

section Plain

omit [LinearOrder R] [RemovedNodePruning D R]

def new (data : D) : DataEnvelope D R := ⟨data, ⟨∅⟩⟩

def mergeData (e : DataEnvelope D R) (data : D) : DataEnvelope D R :=
  { e with data := merge e.data data }

def mergeDelta (e : DataEnvelope D R) (d : Δ) : DataEnvelope D R :=
  { e with data := DeltaReplicatedData.mergeDelta e.data d }

end Plain

variable (e other : DataEnvelope D R) {removed : R}

/-- Neither expires markers nor cleans values. -/
protected def merge : DataEnvelope D R :=
  ⟨DeltaReplicatedData.merge e.data other.data, e.pruning.merge other.pruning⟩

def initRemovedNodePruning (removed owner : R) : DataEnvelope D R :=
  { e with pruning := e.pruning.initializeFor removed owner }

/-- Transfers the contribution of the removed replica to the owner of its initialized marker. -/
def pruneRemovedNode (removed : R) (marker : PruningPerformed) :
    Except CrdtError (DataEnvelope D R) :=
  match e.pruning.get removed with
  | some (.initialized m) =>
    match prune e.data removed m.owner with
    | .ok data => .ok ⟨data, e.pruning.markPerformed removed marker.obsoleteAtMillis⟩
    | .error error => .error error
  | _ => .ok e

def addPruningSeen (node : R) : DataEnvelope D R :=
  { e with pruning := e.pruning.markAllSeenBy node }

def removeObsoletePruningPerformed (now : ℕ) : DataEnvelope D R × Finset R :=
  ({ e with pruning := (e.pruning.removeObsoletePerformed now).1 },
    (e.pruning.removeObsoletePerformed now).2)

def mergePruned (now : ℕ) : DataEnvelope D R :=
  let pruning := e.pruning.mergeWithoutObsolete other.pruning now
  ⟨DeltaReplicatedData.merge (cleanupPerformed e.data pruning) (cleanupPerformed other.data pruning),
    pruning⟩

def mergeDeltaPruned (d : Δ) (pruning : PruningTable R) (now : ℕ) : DataEnvelope D R :=
  let pruning := e.pruning.mergeWithoutObsolete pruning now
  ⟨cleanupPerformed (DeltaReplicatedData.mergeDelta e.data d) pruning, pruning⟩

end DataEnvelope

/-! ## Cleaning -/

/-- What cleaning and merging do to the replicas a value holds contributions of. -/
class LawfulPruning (D : Type*) (Δ R : outParam (Type*)) [DeltaReplicatedData D Δ]
    [RemovedNodePruning D R] : Prop where
  needPruningFrom_merge (a b : D) (r : R) : needPruningFrom (merge a b) r = true →
    needPruningFrom a r = true ∨ needPruningFrom b r = true
  needPruningFrom_cleanup (a : D) (removed r : R) :
    needPruningFrom (pruningCleanup a removed) r = true → r ≠ removed ∧ needPruningFrom a r = true

open LawfulPruning

omit [LinearOrder R] in
lemma needPruningFrom_cleanupReplica [LawfulPruning D Δ R] {removed r : R}
    (h : needPruningFrom (cleanupReplica a removed) r = true) :
    r ≠ removed ∧ needPruningFrom a r = true := by
  unfold cleanupReplica at h
  split_ifs at h with hneed
  · exact needPruningFrom_cleanup a removed r h
  · refine ⟨?_, h⟩
    rintro rfl
    exact hneed h

omit [LinearOrder R] in
/-- Merging a cleaned value brings nothing of the removed replica back. -/
lemma not_needPruningFrom_merge_cleanupReplica [LawfulPruning D Δ R]
    (h : needPruningFrom a removed = false) (b : D) :
    ¬ needPruningFrom (merge a (cleanupReplica b removed)) removed = true := by
  intro htrace
  rcases needPruningFrom_merge a _ removed htrace with ha | hb
  · rw [h] at ha
    cases ha
  · exact (needPruningFrom_cleanupReplica hb).1 rfl

omit [LinearOrder R] in
lemma foldl_cleanup_eq_self {rs : List R} (h : ∀ r ∈ rs, needPruningFrom a r = false) :
    rs.foldl cleanupReplica a = a := by
  induction rs with
  | nil => rfl
  | cons r rs ih =>
    have hr : cleanupReplica a r = a := by
      rw [cleanupReplica, h r mem_cons_self, if_neg Bool.false_ne_true]
    rw [foldl_cons, hr]
    exact ih fun r' hr' => h r' (mem_cons_of_mem _ hr')

lemma cleanupPerformed_eq_self (h : ∀ r ∈ t.performed, needPruningFrom a r = false) :
    cleanupPerformed a t = a :=
  foldl_cleanup_eq_self fun r hr => h r (mem_ordered.mp hr)

lemma cleanupPerformed_eq_cleanupReplica [LawfulPruning D Δ R] (hr : removed ∈ t.performed)
    (h : ∀ r ∈ t.performed, r ≠ removed → needPruningFrom a r = false) :
    cleanupPerformed a t = cleanupReplica a removed := by
  have hfold : ∀ rs : List R, removed ∈ rs → (∀ r ∈ rs, r ≠ removed → needPruningFrom a r = false) →
      rs.foldl cleanupReplica a = cleanupReplica a removed := by
    intro rs
    induction rs with
    | nil => exact fun hmem => absurd hmem not_mem_nil
    | cons r rs ih =>
      intro hmem hrs
      rw [foldl_cons]
      by_cases he : r = removed
      · -- the rest of the list finds nothing more to drop
        subst he
        have hclean : ∀ r' ∈ rs, needPruningFrom (cleanupReplica a r) r' = false := by
          intro r' hr'
          by_contra hneed
          rw [Bool.not_eq_false] at hneed
          obtain ⟨hne, ha⟩ := needPruningFrom_cleanupReplica hneed
          rw [hrs r' (mem_cons_of_mem _ hr') hne] at ha
          cases ha
        exact foldl_cleanup_eq_self hclean
      · have hself : cleanupReplica a r = a := by
          rw [cleanupReplica, hrs r mem_cons_self he, if_neg Bool.false_ne_true]
        rw [hself]
        refine ih ((mem_cons.mp hmem).resolve_left fun h => he h.symm) ?_
        exact fun r' h' => hrs r' (mem_cons_of_mem _ h')
  exact hfold _ (mem_ordered.mpr hr) fun r h' => h r (mem_ordered.mp h')

end Kairo.DistributedData
