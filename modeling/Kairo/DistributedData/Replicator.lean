import Kairo.DistributedData.ORSet

/-!
# Replicator state, delta log and delta receive tracker

The parts of a replicator that move data between replicas, for any delta-replicated data type: the
stored values (`ReplicatorState`), the log of local deltas from which ranges are sent
(`DeltaLog`), and the tracker that accepts ranges in order (`DeltaReceiveTracker`).  Pruning of
removed replicas is left out: no replica is removed.
-/

namespace Kairo.DistributedData

open Kairo.Lib

/-- A data type with full-state merge and operation deltas. -/
class DeltaReplicatedData (D : Type*) (Δ : outParam (Type*)) where
  merge : D → D → D
  delta : D → Option Δ
  mergeDelta : D → Δ → D
  resetDelta : D → D
  /-- The value a first delta is applied to. -/
  zero : Δ → D
  mergeDeltas : Δ → Δ → Δ

open DeltaReplicatedData

instance {T R : Type*} [DecidableEq T] [DecidableEq R] :
    DeltaReplicatedData (ORSet T R) (ORSetDelta T R) where
  merge := ORSet.merge
  delta s := s.delta
  mergeDelta := ORSet.mergeDelta
  resetDelta := ORSet.resetDelta
  zero _ := ORSet.new
  mergeDeltas := ORSetDelta.merge

/-! ## Stored values -/

structure ReplicatorState (K D : Type*) where
  entries : FinMap K D
  changed : Finset K
  deriving DecidableEq

namespace ReplicatorState

variable {K D Δ ε : Type*} [DecidableEq K] [DecidableEq D] [DeltaReplicatedData D Δ]

def new : ReplicatorState K D := ⟨∅, ∅⟩

variable (s : ReplicatorState K D)

def setData (key : K) (d : D) : ReplicatorState K D × Bool :=
  let changed := (s.entries.lookup key).all (· ≠ d)
  (⟨s.entries.insert key d, if changed then insert key s.changed else s.changed⟩, changed)

/-- A local update; the new full state is merged into the stored one. -/
def updateLocal (key : K) (initial : D) (modify : D → Except ε D) :
    Except ε (ReplicatorState K D × Option Δ) :=
  match modify ((s.entries.lookup key).getD initial) with
  | .error e => .error e
  | .ok modified =>
    let full := resetDelta modified
    let next := match s.entries.lookup key with
      | some existing => merge existing full
      | none => full
    .ok ((s.setData key next).1, delta modified)

def writeFull (key : K) (d : D) : ReplicatorState K D × Bool :=
  s.setData key <| match s.entries.lookup key with
    | some existing => merge existing d
    | none => d

def writeDelta (key : K) (d : Δ) : ReplicatorState K D × Bool :=
  s.setData key <| match s.entries.lookup key with
    | some existing => mergeDelta existing d
    | none => mergeDelta (zero d) d

end ReplicatorState

/-! ## Receiving deltas -/

inductive DeltaReceiveStatus
  | applied (previousVersion toVersion : ℕ) (changed : Bool)
  | alreadyHandled (currentVersion toVersion : ℕ)
  | missing (currentVersion expectedFromVersion fromVersion toVersion : ℕ)
  | invalidRange (fromVersion toVersion : ℕ)
  deriving DecidableEq

/-- The last applied version per source replica and key. -/
structure DeltaReceiveTracker (R K : Type*) where
  versions : FinMap (R × K) ℕ
  deriving DecidableEq

namespace DeltaReceiveTracker

variable {R K D Δ : Type*} [DecidableEq R] [DecidableEq K] [DecidableEq D] [DeltaReplicatedData D Δ]

def new : DeltaReceiveTracker R K := ⟨∅⟩

def currentVersion (t : DeltaReceiveTracker R K) (source : R) (key : K) : ℕ :=
  t.versions.count (source, key)

/-- Applies one range of deltas of a source: ranges that are handled already, leave a gap or are
malformed change nothing. -/
def applyDelta (t : DeltaReceiveTracker R K) (state : ReplicatorState K D) (source : R) (key : K)
    (fromVersion toVersion : ℕ) (d : Δ) :
    DeltaReceiveTracker R K × ReplicatorState K D × DeltaReceiveStatus :=
  if fromVersion = 0 ∨ toVersion < fromVersion then
    (t, state, .invalidRange fromVersion toVersion)
  else
    let previous := t.currentVersion source key
    if toVersion ≤ previous then (t, state, .alreadyHandled previous toVersion)
    else if previous + 1 < fromVersion then
      (t, state, .missing previous (previous + 1) fromVersion toVersion)
    else
      let (state, changed) := state.writeDelta key d
      (⟨t.versions.insert (source, key) toVersion⟩, state, .applied previous toVersion changed)

end DeltaReceiveTracker

/-! ## Sending deltas -/

/-- The deltas of the local updates of one key, oldest first; the first one has version one. -/
abbrev DeltaLog (Δ : Type*) := List (Option Δ)

/-- The merged payload of a range, none when an update of the range has no delta.  A range of too many
versions loses its payload as well; here it counts as a range that is never delivered. -/
def mergeDeltaGroup {Δ : Type*} (mergeDeltas : Δ → Δ → Δ) : DeltaLog Δ → Option Δ
  | [] => none
  | first :: rest => rest.foldl (fun acc next => acc.bind fun a => next.map (mergeDeltas a)) first

/-- The updates with versions from `i` to `j`. -/
def DeltaLog.range {Δ : Type*} (log : DeltaLog Δ) (i j : ℕ) : DeltaLog Δ :=
  (log.take j).drop (i - 1)

end Kairo.DistributedData
