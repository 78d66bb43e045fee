import Kairo.DistributedData.PrunedState

/-!
# The pruning tick

A replicator remembers since when replicas are removed.  A tick of the leader initializes markers for
the replicas that have been gone for long enough; every tick performs the prunings that the replica owns
and that all live replicas have seen, and drops the markers that have expired.  `marker_tick` says what
one tick can do to the marker of one key and one removed replica.
-/

set_option linter.unusedSectionVars false

namespace Kairo.DistributedData

open Kairo.Lib DeltaReplicatedData RemovedNodePruning FinMap Option PruningTable

/-! ## Stored values -/

section

variable {K D R : Type*} [LinearOrder K] [DecidableEq D] [LinearOrder R] [RemovedNodePruning D R]

/-- Performs every ready pruning of one envelope; a failure leaves the others to be attempted. -/
def DataEnvelope.performReady (e : DataEnvelope D R) (owner : R) (live : Finset R)
    (marker : PruningPerformed) : DataEnvelope D R × List (R × CrdtError) :=
  (ordered (e.pruning.readyToPerform owner live)).foldl (fun acc removed =>
    match acc.1.pruneRemovedNode removed marker with
    | .ok next => (next, acc.2)
    | .error error => (acc.1, acc.2 ++ [(removed, error)])) (e, [])

namespace ReplicatorState

variable (s : ReplicatorState K (DataEnvelope D R))

/-- Replaces the envelopes that the function changes, and returns their keys. -/
def applyPruningUpdates (f : DataEnvelope D R → DataEnvelope D R) :
    ReplicatorState K (DataEnvelope D R) × Finset K :=
  let changed := s.entries.keys.filter fun key => (s.entries.lookup key).any fun e => f e ≠ e
  (⟨FinMap.tabulate s.entries.keys fun key => (s.entries.lookup key).map f, s.changed ∪ changed⟩,
    changed)

def markPruningSeen (seenBy : R) : ReplicatorState K (DataEnvelope D R) × Finset K :=
  s.applyPruningUpdates (·.addPruningSeen seenBy)

def modifiedByReplicaIds : Finset R :=
  s.entries.keys.biUnion fun key =>
    ((s.entries.lookup key).map fun e => RemovedNodePruning.modifiedByReplicaIds e.data).getD ∅

/-- A performed marker stays; one with another owner is replaced. -/
def shouldInitialize (marker : Option (PruningState R)) (owner : R) : Bool :=
  match marker with
  | none => true
  | some (.initialized m) => m.owner ≠ owner
  | some (.performed _) => false

def initRemovedNodePruning (removed owner : R) : ReplicatorState K (DataEnvelope D R) × Finset K :=
  s.applyPruningUpdates fun e =>
    if needPruningFrom e.data removed && shouldInitialize (e.pruning.get removed) owner then
      e.initRemovedNodePruning removed owner
    else e

def performRemovedNodePruning (owner : R) (live : Finset R) (marker : PruningPerformed) :
    (ReplicatorState K (DataEnvelope D R) × Finset K) × List (K × R × CrdtError) :=
  (s.applyPruningUpdates fun e => (e.performReady owner live marker).1,
    (ordered s.entries.keys).flatMap fun key =>
      (((s.entries.lookup key).map fun e => (e.performReady owner live marker).2).getD []).map (key, ·))

/-- Expired markers are dropped from all envelopes; the removed replicas they were about are returned. -/
def removeObsoletePruningPerformed (now : ℕ) :
    (ReplicatorState K (DataEnvelope D R) × Finset K) × Finset R :=
  (s.applyPruningUpdates fun e => (e.removeObsoletePruningPerformed now).1,
    s.entries.keys.biUnion fun key =>
      ((s.entries.lookup key).map fun e => (e.removeObsoletePruningPerformed now).2).getD ∅)

end ReplicatorState

end

/-! ## Removed replicas -/

/-- When the removed replicas were first observed, on the clock that runs while all are reachable. -/
structure RemovedNodePruningTracker (R : Type*) where
  removedNodes : FinMap R ℕ
  deriving DecidableEq

namespace RemovedNodePruningTracker

variable {R : Type*} [DecidableEq R] (t : RemovedNodePruningTracker R)

/-- The first observation counts. -/
def recordRemoved (node : R) (time : ℕ) : RemovedNodePruningTracker R × Bool :=
  if (t.removedNodes.lookup node).isSome then (t, false)
  else (⟨t.removedNodes.insert node time⟩, true)

def forgetRemoved (node : R) : RemovedNodePruningTracker R := ⟨t.removedNodes.erase node⟩

/-- Contributors that are neither known nor recorded yet are recorded as removed. -/
def recordUnknownModifiedNodes (modifiedBy knownNodes : Finset R) (selfNode : R) (time : ℕ) :
    RemovedNodePruningTracker R × Finset R :=
  let recorded := modifiedBy.filter fun node =>
    node ≠ selfNode ∧ node ∉ knownNodes ∧ (t.removedNodes.lookup node).isNone
  (⟨FinMap.tabulate (t.removedNodes.keys ∪ recorded) fun node =>
    (t.removedNodes.lookup node).or (some time)⟩, recorded)

/-- The dissemination delay has strictly elapsed. -/
def readyToInitialize (time maxDissemination : ℕ) : Finset R :=
  t.removedNodes.keys.filter fun node =>
    (t.removedNodes.lookup node).any fun first => maxDissemination < time - first

lemma readyToInitialize_recordUnknown {modifiedBy knownNodes : Finset R} {selfNode x : R}
    {time maxDissemination : ℕ}
    (h : x ∈ (t.recordUnknownModifiedNodes modifiedBy knownNodes selfNode time).1.readyToInitialize
      time maxDissemination) : x ∈ t.readyToInitialize time maxDissemination := by
  rw [readyToInitialize, Finset.mem_filter, recordUnknownModifiedNodes, lookup_tabulate] at h
  obtain ⟨-, h⟩ := h
  split_ifs at h with hmem
  · cases hx : t.removedNodes.lookup x with
    | none =>
      rw [hx] at h
      simp at h
    | some first =>
      rw [hx] at h
      rw [readyToInitialize, Finset.mem_filter, Finmap.mem_keys, mem_iff_isSome, hx]
      exact ⟨rfl, h⟩
  · cases h

end RemovedNodePruningTracker

/-! ## Ticks -/

/-- Cluster and clock snapshot of one pass. -/
structure RemovedNodePruningTick (R : Type*) where
  selfReplica : R
  liveReplicas : Finset R
  unreachableReplicas : Finset R
  allReachableTimeNanos : ℕ
  maxPruningDisseminationNanos : ℕ
  nowMillis : ℕ
  pruningMarkerTtlMillis : ℕ
  isLeader : Bool

/-- The deadline saturates. -/
def RemovedNodePruningTick.pruningPerformed {R : Type*} (tick : RemovedNodePruningTick R) :
    PruningPerformed :=
  ⟨min (tick.nowMillis + tick.pruningMarkerTtlMillis) Cluster.u64Max⟩

structure RemovedNodePruningTickReport (K R : Type*) where
  skippedUnreachable : Bool
  collectedRemoved : Finset R
  initialized : Finset K
  performed : Finset K
  obsoleteMarkers : Finset K
  forgottenRemoved : Finset R
  failures : List (K × R × CrdtError)

/-- The stored values and the removed replicas of a replicator. -/
structure PruningNode (K D R : Type*) where
  state : ReplicatorState K (DataEnvelope D R)
  removedNodePruning : RemovedNodePruningTracker R

namespace PruningNode

variable {K D R : Type*} [LinearOrder K] [DecidableEq D] [LinearOrder R] [RemovedNodePruning D R]
  (a : PruningNode K D R) (tick : RemovedNodePruningTick R)

/-- The leader infers removed replicas from the contributions it stores. -/
def collect : RemovedNodePruningTracker R × Finset R :=
  if tick.isLeader then
    a.removedNodePruning.recordUnknownModifiedNodes a.state.modifiedByReplicaIds
      (insert tick.selfReplica tick.liveReplicas ∪ a.removedNodePruning.removedNodes.keys)
      tick.selfReplica tick.allReachableTimeNanos
  else (a.removedNodePruning, ∅)

/-- The leader initializes markers, one removed replica after the other. -/
def initializeReady : ReplicatorState K (DataEnvelope D R) × Finset K :=
  if tick.isLeader then
    (ordered ((a.collect tick).1.readyToInitialize tick.allReachableTimeNanos
      tick.maxPruningDisseminationNanos)).foldl
      (fun acc removed =>
        ((acc.1.initRemovedNodePruning removed tick.selfReplica).1,
          acc.2 ∪ (acc.1.initRemovedNodePruning removed tick.selfReplica).2)) (a.state, ∅)
  else (a.state, ∅)

def performReady :
    (ReplicatorState K (DataEnvelope D R) × Finset K) × List (K × R × CrdtError) :=
  (a.initializeReady tick).1.performRemovedNodePruning tick.selfReplica tick.liveReplicas
    tick.pruningPerformed

def expire : (ReplicatorState K (DataEnvelope D R) × Finset K) × Finset R :=
  (a.performReady tick).1.1.removeObsoletePruningPerformed tick.nowMillis

/-- While a replica is unreachable nothing happens. -/
def runRemovedNodePruningTick : PruningNode K D R × RemovedNodePruningTickReport K R :=
  if tick.unreachableReplicas = ∅ then
    (⟨(a.expire tick).1.1, (ordered (a.expire tick).2).foldl (·.forgetRemoved ·)
      (a.collect tick).1⟩,
      ⟨false, (a.collect tick).2, (a.initializeReady tick).2, (a.performReady tick).1.2,
        (a.expire tick).1.2, (a.expire tick).2, (a.performReady tick).2⟩)
  else (a, ⟨true, ∅, ∅, ∅, ∅, ∅, []⟩)

end PruningNode

/-! ## What happens to one marker -/

section

variable {K D R : Type*} [LinearOrder K] [DecidableEq D] [LinearOrder R]

namespace ReplicatorState

variable {s : ReplicatorState K (DataEnvelope D R)} {key : K} {x owner : R}

/-- The marker of a removed replica that a replicator stores with a key. -/
def marker (s : ReplicatorState K (DataEnvelope D R)) (key : K) (removed : R) :
    Option (PruningState R) :=
  (s.entries.lookup key).bind (·.pruning.get removed)

lemma lookup_applyPruningUpdates (f : DataEnvelope D R → DataEnvelope D R) (key : K) :
    (s.applyPruningUpdates f).1.entries.lookup key = (s.entries.lookup key).map f :=
  lookup_tabulate_keys fun h => by rw [h]; rfl

lemma marker_applyPruningUpdates {f : DataEnvelope D R → DataEnvelope D R}
    {g : Option (PruningState R) → Option (PruningState R)} (hg : g none = none)
    (hf : ∀ e, (f e).pruning.get x = g (e.pruning.get x)) :
    (s.applyPruningUpdates f).1.marker key x = g (s.marker key x) := by
  rw [marker, lookup_applyPruningUpdates, marker]
  cases s.entries.lookup key with
  | none => exact hg.symm
  | some e => exact hf e

lemma marker_markPruningSeen (node : R) :
    (s.markPruningSeen node).1.marker key x = (s.marker key x).map (·.addSeen node) :=
  marker_applyPruningUpdates rfl fun e => e.pruning.get_markAllSeenBy x node

lemma marker_removeObsoletePruningPerformed (now : ℕ) :
    (s.removeObsoletePruningPerformed now).1.1.marker key x =
      (s.marker key x).filter (!·.isObsolete now) :=
  marker_applyPruningUpdates rfl fun e => e.pruning.get_removeObsoletePerformed x now

variable [RemovedNodePruning D R]

lemma marker_initRemovedNodePruning (s : ReplicatorState K (DataEnvelope D R)) (key : K)
    (removed x owner : R) :
    (s.initRemovedNodePruning removed owner).1.marker key x = s.marker key x ∨
      x = removed ∧ (s.initRemovedNodePruning removed owner).1.marker key x =
        some (.initialized (.new owner)) ∧
      ∃ e, s.entries.lookup key = some e ∧ needPruningFrom e.data x = true ∧
        shouldInitialize (s.marker key x) owner = true := by
  rw [marker, initRemovedNodePruning, lookup_applyPruningUpdates, marker]
  cases he : s.entries.lookup key with
  | none => exact .inl rfl
  | some e =>
    rw [map_some, bind_some, bind_some]
    split_ifs with hinit
    · rw [DataEnvelope.initRemovedNodePruning, get_initializeFor]
      split_ifs with hx
      · subst hx
        rw [Bool.and_eq_true] at hinit
        exact .inr ⟨rfl, rfl, e, rfl, hinit⟩
      · exact .inl rfl
    · exact .inl rfl

lemma data_initRemovedNodePruning (s : ReplicatorState K (DataEnvelope D R)) (key : K)
    (removed owner : R) :
    ((s.initRemovedNodePruning removed owner).1.entries.lookup key).map (·.data) =
      (s.entries.lookup key).map (·.data) := by
  rw [initRemovedNodePruning, lookup_applyPruningUpdates, map_map]
  cases s.entries.lookup key with
  | none => rfl
  | some e =>
    rw [map_some, map_some, Function.comp]
    split_ifs <;> rfl

lemma marker_foldl_init (xs : List R) (keys : Finset K) :
    let after := (xs.foldl (fun acc removed => ((acc.1.initRemovedNodePruning removed owner).1,
      acc.2 ∪ (acc.1.initRemovedNodePruning removed owner).2)) (s, keys)).1
    after.marker key x = s.marker key x ∨
      x ∈ xs ∧ after.marker key x = some (.initialized (.new owner)) ∧
      ∃ e, s.entries.lookup key = some e ∧ needPruningFrom e.data x = true ∧
        shouldInitialize (s.marker key x) owner = true := by
  induction xs generalizing s keys with
  | nil => exact .inl rfl
  | cons y xs ih =>
    rw [List.foldl_cons]
    have hstep := marker_initRemovedNodePruning s key y x owner
    have hdata := data_initRemovedNodePruning s key y owner
    rcases ih _ with hrest | ⟨hmem, hrest, e', he', hneed, hshould⟩
    · rcases hstep with hstep | ⟨rfl, hstep, he⟩
      · exact .inl (hrest.trans hstep)
      · exact .inr ⟨List.mem_cons_self, hrest.trans hstep, he⟩
    · refine .inr ⟨List.mem_cons_of_mem _ hmem, hrest, ?_⟩
      rcases hstep with hstep | ⟨rfl, hstep, he⟩
      · rw [he'] at hdata
        obtain ⟨e, he, hsame⟩ := map_eq_some_iff.mp hdata.symm
        rw [hstep] at hshould
        exact ⟨e, he, by rw [hsame]; exact hneed, hshould⟩
      · exact he

end ReplicatorState

namespace DataEnvelope

variable [RemovedNodePruning D R] {e : DataEnvelope D R} {x : R}

lemma get_pruneRemovedNode {removed : R} {marker : PruningPerformed} {next : DataEnvelope D R}
    (h : e.pruneRemovedNode removed marker = .ok next) :
    next.pruning.get x = e.pruning.get x ∨
      x = removed ∧ next.pruning.get x = some (.performed marker) := by
  unfold pruneRemovedNode at h
  split at h
  · split at h
    · cases h
      rw [get_markPerformed]
      split_ifs with hx
      · exact .inr ⟨hx, rfl⟩
      · exact .inl rfl
    · cases h
  · cases h
    exact .inl rfl

lemma get_performReady (owner : R) (live : Finset R) (marker : PruningPerformed) :
    (e.performReady owner live marker).1.pruning.get x = e.pruning.get x ∨
      e.pruning.isReady owner live x = true ∧
        (e.performReady owner live marker).1.pruning.get x = some (.performed marker) := by
  have hfold : ∀ (xs : List R) (acc : DataEnvelope D R × List (R × CrdtError)),
      let pruned := xs.foldl (fun acc removed =>
        match acc.1.pruneRemovedNode removed marker with
        | .ok next => (next, acc.2)
        | .error error => (acc.1, acc.2 ++ [(removed, error)])) acc
      pruned.1.pruning.get x = acc.1.pruning.get x ∨
        x ∈ xs ∧ pruned.1.pruning.get x = some (.performed marker) := by
    intro xs
    induction xs with
    | nil => exact fun acc => .inl rfl
    | cons y xs ih =>
      intro acc
      rw [List.foldl_cons]
      cases hp : acc.1.pruneRemovedNode y marker with
      | error error =>
        exact (ih (acc.1, acc.2 ++ [(y, error)])).imp id fun h => ⟨List.mem_cons_of_mem _ h.1, h.2⟩
      | ok next =>
        rcases ih (next, acc.2) with hrest | ⟨hmem, hrest⟩
        · rcases get_pruneRemovedNode (x := x) hp with hstep | ⟨rfl, hstep⟩
          · exact .inl (hrest.trans hstep)
          · exact .inr ⟨List.mem_cons_self, hrest.trans hstep⟩
        · exact .inr ⟨List.mem_cons_of_mem _ hmem, hrest⟩
  refine (hfold _ (e, [])).imp id fun h => ⟨?_, h.2⟩
  rw [mem_ordered, readyToPerform, Finset.mem_filter] at h
  exact h.1.2

end DataEnvelope

/-- The marker is initialized, owned by `owner` and seen by every live replica. -/
def PruningState.isReady (owner : R) (live : Finset R) : PruningState R → Bool
  | .initialized m => m.owner = owner && m.isSeenByAll live
  | .performed _ => false

lemma PruningTable.isReady_eq (t : PruningTable R) (owner : R) (live : Finset R) (x : R) :
    t.isReady owner live x = (t.get x).any (·.isReady owner live) := by
  unfold isReady
  cases t.get x with
  | none => rfl
  | some m => cases m <;> rfl

lemma ReplicatorState.marker_performRemovedNodePruning [RemovedNodePruning D R]
    (s : ReplicatorState K (DataEnvelope D R)) (owner : R) (live : Finset R)
    (performed : PruningPerformed) (key : K) (x : R) :
    (s.performRemovedNodePruning owner live performed).1.1.marker key x = s.marker key x ∨
      (s.marker key x).any (·.isReady owner live) = true ∧
        (s.performRemovedNodePruning owner live performed).1.1.marker key x =
          some (.performed performed) := by
  rw [marker, performRemovedNodePruning, lookup_applyPruningUpdates, marker]
  cases s.entries.lookup key with
  | none => exact .inl rfl
  | some e =>
    have hready := e.pruning.isReady_eq owner live x
    rcases e.get_performReady owner live performed with h | ⟨h, hperformed⟩
    · exact .inl h
    · exact .inr ⟨hready.symm.trans h, hperformed⟩

namespace PruningNode

variable [RemovedNodePruning D R] (a : PruningNode K D R) (tick : RemovedNodePruningTick R)
  (key : K) (x : R)

/-- The tick performs the pruning of the removed replica in the value of the key. -/
def performs : Bool :=
  decide (tick.unreachableReplicas = ∅) &&
    ((a.initializeReady tick).1.marker key x).any (·.isReady tick.selfReplica tick.liveReplicas) &&
    ((a.performReady tick).1.1.marker key x).any (·.isPerformed)

/-- A leader finds a marker of another owner where it initializes one of its own. -/
def replacesOwner : Bool :=
  tick.isLeader && decide (tick.unreachableReplicas = ∅) &&
    decide (x ∈ a.removedNodePruning.readyToInitialize tick.allReachableTimeNanos
      tick.maxPruningDisseminationNanos) &&
    (a.state.entries.lookup key).any fun e => needPruningFrom e.data x &&
      (e.pruning.get x).any fun m => match m with
        | .initialized m => m.owner ≠ tick.selfReplica
        | .performed _ => false

/-- The tick initializes a marker where there is none. -/
def starts : Bool :=
  decide (tick.unreachableReplicas = ∅) && (a.state.marker key x).isNone &&
    ((a.initializeReady tick).1.marker key x).isSome

lemma marker_initializeReady (hrun : tick.unreachableReplicas = ∅)
    (hkeep : a.replacesOwner tick key x = false) :
    (a.initializeReady tick).1.marker key x = a.state.marker key x ∨
      a.state.marker key x = none ∧ (a.initializeReady tick).1.marker key x =
        some (.initialized (.new tick.selfReplica)) := by
  unfold initializeReady
  by_cases hleader : tick.isLeader = true
  · rw [if_pos hleader]
    refine (ReplicatorState.marker_foldl_init _ _).imp id fun h => ?_
    obtain ⟨hmem, hinit, e, he, hneed, hshould⟩ := h
    refine ⟨?_, hinit⟩
    rw [mem_ordered, collect, if_pos hleader] at hmem
    have hready := a.removedNodePruning.readyToInitialize_recordUnknown hmem
    have hmarker : a.state.marker key x = e.pruning.get x := by
      rw [ReplicatorState.marker, he]
      rfl
    rw [hmarker] at hshould ⊢
    -- a marker that would be replaced is one of another owner
    cases hm : e.pruning.get x with
    | none => rfl
    | some m =>
      cases m with
      | performed m =>
        rw [hm] at hshould
        cases hshould
      | initialized m =>
        rw [hm] at hshould
        have howner : m.owner ≠ tick.selfReplica := of_decide_eq_true hshould
        rw [replacesOwner, he, hleader] at hkeep
        simp [hrun, hready, hneed, hm, howner] at hkeep
  · rw [if_neg hleader]
    exact .inl rfl

/-- What one tick does to one marker after the initialization: it may be performed where it is ready, and
dropped where it has expired. -/
lemma marker_tick (hrun : tick.unreachableReplicas = ∅) :
    ∃ performed : Option (PruningState R),
      (a.performs tick key x = false ∧ performed = (a.initializeReady tick).1.marker key x ∨
        a.performs tick key x = true ∧ ((a.initializeReady tick).1.marker key x).any
            (·.isReady tick.selfReplica tick.liveReplicas) = true ∧
          performed = some (.performed tick.pruningPerformed)) ∧
      (a.runRemovedNodePruningTick tick).1.state.marker key x =
        performed.filter (!·.isObsolete tick.nowMillis) := by
  refine ⟨(a.performReady tick).1.1.marker key x, ?_, ?_⟩
  · have hperform := (a.initializeReady tick).1.marker_performRemovedNodePruning tick.selfReplica
      tick.liveReplicas tick.pruningPerformed key x
    have hdecide : decide (tick.unreachableReplicas = ∅) = true := decide_eq_true hrun
    rcases hperform with h | ⟨hready, h⟩
    · refine .inl ⟨?_, h⟩
      -- a ready marker is not performed yet
      have hsame : (a.performReady tick).1.1.marker key x = (a.initializeReady tick).1.marker key x := h
      rw [performs, hdecide, hsame]
      cases hm : (a.initializeReady tick).1.marker key x with
      | none => rfl
      | some m => cases m <;> simp [PruningState.isReady, PruningState.isPerformed]
    · refine .inr ⟨?_, hready, h⟩
      have hperformed : (a.performReady tick).1.1.marker key x =
          some (.performed tick.pruningPerformed) := h
      rw [performs, hdecide, hready, hperformed]
      rfl
  · rw [runRemovedNodePruningTick, if_pos hrun]
    exact ReplicatorState.marker_removeObsoletePruningPerformed _

lemma marker_tick_skipped (hskip : tick.unreachableReplicas ≠ ∅) :
    a.performs tick key x = false ∧
      (a.runRemovedNodePruningTick tick).1.state.marker key x = a.state.marker key x := by
  rw [performs, runRemovedNodePruningTick, if_neg hskip, decide_eq_false hskip]
  exact ⟨rfl, rfl⟩

end PruningNode

end

end Kairo.DistributedData
