import Kairo.DistributedData.Envelope

/-!
# Replicator state with envelopes

The operations of the stored values that deal with pruning markers: the merges of full states and of
deltas that clean late contributions, the marking as seen, and the causal application of a range of
deltas with the markers that came beside it.
-/

namespace Kairo.DistributedData

open Kairo.Lib DeltaReplicatedData RemovedNodePruning

section Writes

variable {K D Δ R : Type*} [DecidableEq K] [DecidableEq D] [LinearOrder R]
  [DeltaReplicatedData D Δ] [RemovedNodePruning D R]

namespace ReplicatorState

variable (s : ReplicatorState K (DataEnvelope D R))

omit [LinearOrder R] [RemovedNodePruning D R] in
/-- A local update of an enveloped value; the delta it leaves is returned. -/
def updateEnvelope [DecidableEq R] {ε : Type*} (key : K) (initial : D) (modify : D → Except ε D) :
    Except ε (ReplicatorState K (DataEnvelope D R) × Option Δ) :=
  match modify (((s.entries.lookup key).map (·.data)).getD initial) with
  | .error e => .error e
  | .ok modified =>
    let full := resetDelta modified
    let next := match s.entries.lookup key with
      | some existing => existing.mergeData full
      | none => DataEnvelope.new full
    .ok ((s.setData key next).1, delta modified)

/-- The first envelope of a key is stored as it comes. -/
def writeFullPruned (key : K) (envelope : DataEnvelope D R) (now : ℕ) :
    ReplicatorState K (DataEnvelope D R) × Bool :=
  s.setData key <| match s.entries.lookup key with
    | some existing => existing.mergePruned envelope now
    | none => envelope

def writeDeltaPruned (key : K) (d : Δ) (pruning : PruningTable R) (now : ℕ) :
    ReplicatorState K (DataEnvelope D R) × Bool :=
  s.setData key <| match s.entries.lookup key with
    | some existing => existing.mergeDeltaPruned d pruning now
    | none => (DataEnvelope.new (zero d)).mergeDeltaPruned d pruning now

omit [DeltaReplicatedData D Δ] [RemovedNodePruning D R] in
def markKeyPruningSeen (key : K) (seenBy : R) : ReplicatorState K (DataEnvelope D R) × Bool :=
  match s.entries.lookup key with
  | some existing => s.setData key (existing.addPruningSeen seenBy)
  | none => (s, false)

end ReplicatorState

namespace DeltaReceiveTracker

/-- Applies one range of deltas with its markers; the version checks are those of `applyDelta`. -/
def applyDeltaPruned (t : DeltaReceiveTracker R K) (state : ReplicatorState K (DataEnvelope D R))
    (source : R) (key : K) (fromVersion toVersion : ℕ) (d : Δ) (pruning : PruningTable R) (now : ℕ)
    (seenBy : Option R) :
    DeltaReceiveTracker R K × ReplicatorState K (DataEnvelope D R) × DeltaReceiveStatus :=
  if fromVersion = 0 ∨ toVersion < fromVersion then
    (t, state, .invalidRange fromVersion toVersion)
  else
    let previous := t.currentVersion source key
    if toVersion ≤ previous then (t, state, .alreadyHandled previous toVersion)
    else if previous + 1 < fromVersion then
      (t, state, .missing previous (previous + 1) fromVersion toVersion)
    else
      let (state, merged) := state.writeDeltaPruned key d pruning now
      let (state, seenChanged) := match seenBy with
        | some seenBy => state.markKeyPruningSeen key seenBy
        | none => (state, false)
      (⟨t.versions.insert (source, key) toVersion⟩, state,
        .applied previous toVersion (merged || seenChanged))

variable (t : DeltaReceiveTracker R K) (state : ReplicatorState K (DataEnvelope D R))
  (source : R) (key : K) {fromVersion toVersion : ℕ} (d : Δ) (pruning : PruningTable R) (now : ℕ)
  (seenBy : Option R)

/-- A range is applied when it starts at or below the next version and goes beyond the last one. -/
lemma applyDeltaPruned_of_next (hpos : 0 < fromVersion) (hle : fromVersion ≤ toVersion)
    (hnew : t.currentVersion source key < toVersion)
    (hnext : fromVersion ≤ t.currentVersion source key + 1) :
    ∃ changed, (t.applyDeltaPruned state source key fromVersion toVersion d pruning now seenBy).2.2 =
        .applied (t.currentVersion source key) toVersion changed ∧
      (t.applyDeltaPruned state source key fromVersion toVersion d pruning now seenBy).1 =
        ⟨t.versions.insert (source, key) toVersion⟩ := by
  unfold applyDeltaPruned
  rw [if_neg (by omega)]
  rw [if_neg (by omega), if_neg (by omega)]
  exact ⟨_, rfl, rfl⟩

/-- A range beyond the next version is missing its predecessor and changes nothing. -/
lemma applyDeltaPruned_of_gap (hle : fromVersion ≤ toVersion)
    (hgap : t.currentVersion source key + 1 < fromVersion) :
    t.applyDeltaPruned state source key fromVersion toVersion d pruning now seenBy =
      (t, state, .missing (t.currentVersion source key) (t.currentVersion source key + 1) fromVersion
        toVersion) := by
  unfold applyDeltaPruned
  rw [if_neg (by omega)]
  rw [if_neg (by omega), if_pos hgap]

omit [LinearOrder R] in
lemma currentVersion_insert [DecidableEq R] (t : DeltaReceiveTracker R K) (source source' : R)
    (key key' : K) (version : ℕ) :
    currentVersion ⟨t.versions.insert (source, key) version⟩ source' key' =
      if source' = source ∧ key' = key then version else t.currentVersion source' key' := by
  rw [currentVersion, FinMap.count_insert]
  simp only [Prod.mk.injEq]
  rfl

end DeltaReceiveTracker

end Writes

end Kairo.DistributedData
