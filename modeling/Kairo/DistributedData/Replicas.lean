import Kairo.Lib.Machine
import Kairo.DistributedData.ORSetSound
import Mathlib.Order.Interval.Finset.Nat

/-!
# Replicas of observed-remove sets

Any number of replicas, each with its stored sets, delta log and delta receive tracker.  A step is a
local update, the delivery of a range of a replica's delta log, the sending of a full state, or the
delivery of a full state that was sent before.  A range of a log never changes once it is recorded, so
delayed, repeated, overlapping and reordered deltas are all deliveries of some range; lost messages
are those that are never delivered.
-/

namespace Kairo.DistributedData

open Kairo.Lib

/-- What a local update does to the set, with the replica's own id. -/
inductive SetUpdate (T : Type*)
  | add (x : T)
  | remove (x : T)
  deriving DecidableEq

variable {T R K : Type*} [DecidableEq T] [DecidableEq R] [DecidableEq K]

def ORSet.update (replica : R) (s : ORSet T R) : SetUpdate T → ORSet T R
  | .add x => s.add replica x
  | .remove x => s.remove replica x

/-! ## One replica -/

/-- A replicator, with a record of the updates of each key that have reached it, as source replica and
version in the log of the source. -/
structure Replica (T R K : Type*) where
  state : ReplicatorState K (ORSet T R)
  tracker : DeltaReceiveTracker R K
  log : FinMap K (DeltaLog (ORSetDelta T R))
  received : FinMap K (Finset (R × ℕ))

/-- A full state on its way, with the updates that had reached its sender. -/
structure FullState (T R K : Type*) where
  key : K
  data : ORSet T R
  received : Finset (R × ℕ)

namespace Replica

variable (p : Replica T R K) (key : K)

def new : Replica T R K := ⟨.new, .new, ∅, ∅⟩

/-- The stored set; a key without entry reads as the empty set. -/
def value : ORSet T R := (p.state.entries.lookup key).getD .new

def set : ORSetCore T R := (p.value key).toORSetCore

def logOf : DeltaLog (ORSetDelta T R) := (p.log.lookup key).getD []

def receivedOf : Finset (R × ℕ) := (p.received.lookup key).getD ∅

/-- A local update: the state changes and the delta is recorded under the next version. -/
def update (self : R) (ops : List (SetUpdate T)) : Replica T R K :=
  match p.state.updateLocal (ε := Empty) key .new fun s => .ok (ops.foldl (ORSet.update self) s) with
  | .error e => nomatch e
  | .ok (state, delta) =>
    { p with
      state
      log := p.log.insert key (p.logOf key ++ [delta])
      received := p.received.insert key (insert (self, (p.logOf key).length + 1) (p.receivedOf key)) }

/-- A range of deltas; a range that the tracker refuses counts as not received. -/
def applyDelta (source : R) (fromVersion toVersion : ℕ) (d : ORSetDelta T R) : Replica T R K :=
  match p.tracker.applyDelta p.state source key fromVersion toVersion d with
  | (tracker, state, .applied ..) =>
    { p with
      state, tracker
      received := p.received.insert key
        (p.receivedOf key ∪ (Finset.Icc fromVersion toVersion).image (source, ·)) }
  | (tracker, state, _) => { p with state, tracker }

def writeFull (data : ORSet T R) (received : Finset (R × ℕ)) : Replica T R K :=
  { p with
    state := (p.state.writeFull key data).1
    received := p.received.insert key (p.receivedOf key ∪ received) }

end Replica

/-! ## All replicas -/

structure ReplicaWorld (T R K : Type*) where
  replicas : FinMap R (Replica T R K)
  sent : List (FullState T R K)

namespace ReplicaWorld

variable (w : ReplicaWorld T R K)

def start : ReplicaWorld T R K := ⟨∅, []⟩

/-- A replica that has done nothing yet is a new one. -/
def replica (q : R) : Replica T R K := (w.replicas.lookup q).getD .new

/-- The operations of the updates of a key by a replica, oldest first. -/
def history (key : K) : History T R := fun q => ((w.replica q).logOf key).flatMap deltaOps

/-- The operations of the update with the given version. -/
def updateOps (key : K) (q : R) (version : ℕ) : List (SetOp T R) :=
  ((((w.replica q).logOf key)[version - 1]?).map deltaOps).getD []

/-- The remove has observed every add of its element that any replica has performed. -/
def ObservesAdds (key : K) (op : ORSetRemoveDelta T R) : Prop :=
  ∀ r, ∀ n ∈ addDots op.element r (w.history key r), n ≤ op.seen.versionAt r

inductive Action (T R K : Type*)
  | update (q : R) (key : K) (ops : List (SetUpdate T))
  | deliver (q source : R) (key : K) (fromVersion toVersion : ℕ)
  | send (q : R) (key : K)
  | receive (q : R) (i : ℕ)

/-- The payload of a range of a log; a range with an update that has no delta is not sent. -/
def payload (source : R) (key : K) (fromVersion toVersion : ℕ) : Option (ORSetDelta T R) :=
  let log := (w.replica source).logOf key
  if fromVersion = 0 ∨ log.length < toVersion then none
  else mergeDeltaGroup ORSetDelta.merge (log.range fromVersion toVersion)

def step (w : ReplicaWorld T R K) : Action T R K → Option (ReplicaWorld T R K)
  | .update q key ops =>
    some { w with replicas := w.replicas.insert q ((w.replica q).update key q ops) }
  | .deliver q source key fromVersion toVersion =>
    (w.payload source key fromVersion toVersion).map fun d =>
      { w with
        replicas := w.replicas.insert q
          ((w.replica q).applyDelta key source fromVersion toVersion d) }
  | .send q key => ((w.replica q).state.entries.lookup key).map fun data =>
      { w with sent := w.sent ++ [⟨key, data, (w.replica q).receivedOf key⟩] }
  | .receive q i => (w.sent[i]?).map fun m =>
      { w with replicas := w.replicas.insert q ((w.replica q).writeFull m.key m.data m.received) }

def machine : Machine (ReplicaWorld T R K) (Action T R K) where
  init w := w = start
  step := step

/-- No counter saturates, a range is applied only where the remove operations come after the adds
they have observed, and no add is replayed on a set that covers its dot but lacks its element. -/
def Careful (w : ReplicaWorld T R K) : Action T R K → Prop
  | .update q key ops =>
    ((w.replica q).set key).versionVector.versionAt q + ops.length ≤ Cluster.u64Max
  | .deliver q source key fromVersion toVersion =>
    fromVersion ≤ (w.replica q).tracker.currentVersion source key + 1 →
    (w.replica q).tracker.currentVersion source key < toVersion →
    CarefulOps w.replicas.keys (w.history key) ((w.replica q).set key)
      (deltaOps (w.payload source key fromVersion toVersion))
  | .send _ _ => True
  | .receive _ _ => True

instance [Fintype R] (key : K) (op : ORSetRemoveDelta T R) : Decidable (w.ObservesAdds key op) :=
  inferInstanceAs (Decidable
    (∀ r, ∀ n ∈ addDots op.element r (w.history key r), n ≤ op.seen.versionAt r))

instance : (a : Action T R K) → Decidable (w.Careful a)
  | .update q key ops => inferInstanceAs (Decidable
      (((w.replica q).set key).versionVector.versionAt q + ops.length ≤ Cluster.u64Max))
  | .deliver q source key fromVersion toVersion => inferInstanceAs (Decidable
      (fromVersion ≤ (w.replica q).tracker.currentVersion source key + 1 →
      (w.replica q).tracker.currentVersion source key < toVersion →
      CarefulOps w.replicas.keys (w.history key) ((w.replica q).set key)
        (deltaOps (w.payload source key fromVersion toVersion))))
  | .send _ _ => isTrue trivial
  | .receive _ _ => isTrue trivial

end ReplicaWorld

end Kairo.DistributedData
