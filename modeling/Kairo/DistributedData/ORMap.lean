import Kairo.DistributedData.ORSetCoverage
import Kairo.DistributedData.Envelope

/-!
# Observed-remove maps

A map whose keys are an observed-remove set and whose values are replicated data themselves.  Values
are merged for the keys that survive in the merged key set.  The delta of a map lists its operations:
a key with a complete value, a key with the delta of its value, or the removal of a key.
-/

namespace Kairo.DistributedData

open Kairo.Lib RemovedNodePruning Option

/-- Operation deltas, in causal order. -/
inductive ORMapDelta (K V Δ R : Type*)
  | put (keys : ORSetDelta K R) (key : K) (value : V)
  | update (keys : ORSetDelta K R) (values : FinMap K Δ)
  | remove (keys : ORSetDelta K R)
  | group (ops : List (ORMapDelta K V Δ R))

structure ORMap (K V Δ R : Type*) where
  keys : ORSet K R
  values : FinMap K V
  delta : Option (ORMapDelta K V Δ R)

namespace ORMapDelta

variable {K V Δ R : Type*}

/-- Groups are concatenated. -/
def merge : ORMapDelta K V Δ R → ORMapDelta K V Δ R → ORMapDelta K V Δ R
  | .group left, .group right => .group (left ++ right)
  | .group left, right => .group (left ++ [right])
  | left, .group right => .group (left :: right)
  | left, right => .group [left, right]

def mergeOptional (existing : Option (ORMapDelta K V Δ R)) (next : ORMapDelta K V Δ R) :
    ORMapDelta K V Δ R :=
  (existing.map (·.merge next)).getD next

end ORMapDelta

namespace ORMap

section Operations

variable {K V Δ R : Type*} [DecidableEq K] [DecidableEq R] [DeltaReplicatedData V Δ]

def new : ORMap K V Δ R := ⟨.new, ∅, none⟩

def put (s : ORMap K V Δ R) (replica : R) (key : K) (value : V) : ORMap K V Δ R :=
  let keys := s.keys.resetDelta.add replica key
  let keyDelta := keys.delta.get rfl -- an add records a delta
  ⟨keys, s.values.insert key value, some (.mergeOptional s.delta (.put keyDelta key value))⟩

/-- The value is changed by a function; its delta is sent when the key had a value before. -/
def updated (s : ORMap K V Δ R) (replica : R) (key : K) (initial : V) (modify : V → V) :
    ORMap K V Δ R :=
  let hadValue := (s.values.lookup key).isSome
  let oldValue := (s.values.lookup key).getD initial
  let nextValue := modify (DeltaReplicatedData.resetDelta oldValue)
  let keys := s.keys.resetDelta.add replica key
  let keyDelta := keys.delta.get rfl
  let op := match hadValue, DeltaReplicatedData.delta nextValue with
    | true, some valueDelta => .update keyDelta (Finmap.singleton key valueDelta)
    | _, _ => .put keyDelta key nextValue
  ⟨keys, s.values.insert key nextValue, some (.mergeOptional s.delta op)⟩

/-- Removing a key without a value changes nothing.  With a value the removal from the key set has to
record a delta; when the key set does not hold the key the call panics, and there is no result. -/
def remove (s : ORMap K V Δ R) (replica : R) (key : K) : Option (ORMap K V Δ R) :=
  if (s.values.lookup key).isNone then some s
  else
    let keys := s.keys.resetDelta.remove replica key
    keys.delta.map fun keyDelta =>
      ⟨keys, s.values.erase key, some (.mergeOptional s.delta (.remove keyDelta))⟩

def merge (s other : ORMap K V Δ R) : ORMap K V Δ R :=
  let keys := s.keys.merge other.keys
  ⟨keys, FinMap.tabulate keys.elements.keys fun key =>
    Option.merge DeltaReplicatedData.merge (s.values.lookup key) (other.values.lookup key), none⟩

/-- The values after the deltas of an update; keys that are not in the key set are left alone. -/
def updateValues (keys : ORSet K R) (values : FinMap K V) (deltas : FinMap K Δ) : FinMap K V :=
  FinMap.tabulate (values.keys ∪ deltas.keys) fun key =>
    match deltas.lookup key with
    | some valueDelta =>
      if keys.contains key then
        some (((values.lookup key).map (DeltaReplicatedData.mergeDelta · valueDelta)).getD
          (DeltaReplicatedData.mergeDelta (DeltaReplicatedData.zero valueDelta) valueDelta))
      else values.lookup key
    | none => values.lookup key

mutual

def applyDelta (acc : ORSet K R × FinMap K V) : ORMapDelta K V Δ R → ORSet K R × FinMap K V
  | .put keys key value => (acc.1.mergeDelta keys, acc.2.insert key value)
  | .update keys values =>
    (acc.1.mergeDelta keys, updateValues (acc.1.mergeDelta keys) acc.2 values)
  | .remove keys =>
    (acc.1.mergeDelta keys, match keys with
      | .remove op => acc.2.erase op.element
      | _ => acc.2)
  | .group ops => applyDeltas acc ops

def applyDeltas (acc : ORSet K R × FinMap K V) :
    List (ORMapDelta K V Δ R) → ORSet K R × FinMap K V
  | [] => acc
  | op :: ops => applyDeltas (applyDelta acc op) ops

end

def dryMergeDelta (s : ORMap K V Δ R) (d : ORMapDelta K V Δ R) : ORMap K V Δ R :=
  ⟨(applyDelta (s.keys, s.values) d).1, (applyDelta (s.keys, s.values) d).2, none⟩

def mergeDelta (s : ORMap K V Δ R) (d : ORMapDelta K V Δ R) : ORMap K V Δ R :=
  s.merge (s.dryMergeDelta d)

omit [DecidableEq K] [DecidableEq R] [DeltaReplicatedData V Δ] in
def resetDelta (s : ORMap K V Δ R) : ORMap K V Δ R := ⟨s.keys.resetDelta, s.values, none⟩

instance : DeltaReplicatedData (ORMap K V Δ R) (ORMapDelta K V Δ R) where
  merge := merge
  delta s := s.delta
  mergeDelta := mergeDelta
  resetDelta := resetDelta
  zero _ := new
  mergeDeltas := ORMapDelta.merge

end Operations

/-! ## Pruning -/

section

variable {K V Δ R : Type*} [LinearOrder K] [DecidableEq R] [RemovedNodePruning V R]
  (s : ORMap K V Δ R)

def modifiedByReplicaIds : Finset R :=
  s.keys.modifiedByReplicaIds ∪
    s.values.keys.biUnion fun key =>
      ((s.values.lookup key).map RemovedNodePruning.modifiedByReplicaIds).getD ∅

def needPruningFrom (removed : R) : Bool :=
  s.keys.needPruningFrom removed ||
    decide (∃ key ∈ s.values.keys, (s.values.lookup key).any
    (RemovedNodePruning.needPruningFrom · removed))

/-- The value of one key, collapsed where it has to be. -/
def pruneValue (value : V) (removed collapseInto : R) : Except CrdtError V :=
  if RemovedNodePruning.needPruningFrom value removed then
    RemovedNodePruning.prune value removed collapseInto
  else .ok value

/-- The first value, in the order of the keys, that cannot be collapsed fails the pruning. -/
def prune (removed collapseInto : R) : Except CrdtError (ORMap K V Δ R) :=
  let results := fun key => (s.values.lookup key).map (pruneValue · removed collapseInto)
  match (ordered s.values.keys).findSome? fun key =>
      (results key).bind fun result => match result with
        | .error e => some e
        | .ok _ => none with
  | some e => .error e
  | none => .ok ⟨s.keys.prune removed collapseInto,
      FinMap.tabulate s.values.keys fun key => (results key).bind Except.toOption, none⟩

/-- The keys without a dot of another replica go; their values stay. -/
def pruningCleanup (removed : R) : ORMap K V Δ R :=
  ⟨s.keys.pruningCleanup removed,
    FinMap.tabulate s.values.keys fun key => (s.values.lookup key).map (cleanupReplica · removed),
    none⟩

instance : RemovedNodePruning (ORMap K V Δ R) R where
  modifiedByReplicaIds := modifiedByReplicaIds
  needPruningFrom := needPruningFrom
  prune := prune
  pruningCleanup := pruningCleanup

end

end ORMap

/-! ## The operations of a delta -/

inductive MapOp (K V Δ R : Type*)
  | put (keys : ORSetDelta K R) (key : K) (value : V)
  | update (keys : ORSetDelta K R) (values : FinMap K Δ)
  | remove (keys : ORSetDelta K R)

namespace ORMapDelta

variable {K V Δ R : Type*}

mutual

def ops : ORMapDelta K V Δ R → List (MapOp K V Δ R)
  | .put keys key value => [.put keys key value]
  | .update keys values => [.update keys values]
  | .remove keys => [.remove keys]
  | .group ops => opsOf ops

def opsOf : List (ORMapDelta K V Δ R) → List (MapOp K V Δ R)
  | [] => []
  | op :: ops => op.ops ++ opsOf ops

end

lemma opsOf_append (a b : List (ORMapDelta K V Δ R)) : opsOf (a ++ b) = opsOf a ++ opsOf b := by
  induction a with
  | nil => rfl
  | cons op ops ih => rw [List.cons_append, opsOf, opsOf, ih, List.append_assoc]

lemma ops_merge (a b : ORMapDelta K V Δ R) : (a.merge b).ops = a.ops ++ b.ops := by
  cases a <;> cases b <;> simp [merge, ops, opsOf, opsOf_append]

end ORMapDelta

def mapDeltaOps {K V Δ R : Type*} (d : Option (ORMapDelta K V Δ R)) : List (MapOp K V Δ R) :=
  d.elim [] ORMapDelta.ops

lemma mapDeltaOps_mergeOptional {K V Δ R : Type*} (existing : Option (ORMapDelta K V Δ R))
    (next : ORMapDelta K V Δ R) :
    mapDeltaOps (some (.mergeOptional existing next)) = mapDeltaOps existing ++ next.ops := by
  cases existing with
  | none => rfl
  | some d => exact ORMapDelta.ops_merge d next

namespace ORMap

variable {K V Δ R : Type*} [DecidableEq K] [DecidableEq R] [DeltaReplicatedData V Δ]

def replay (acc : ORSet K R × FinMap K V) : MapOp K V Δ R → ORSet K R × FinMap K V
  | .put keys key value => applyDelta acc (.put keys key value)
  | .update keys values => applyDelta acc (.update keys values)
  | .remove keys => applyDelta acc (.remove keys)

mutual

lemma applyDelta_eq_foldl (acc : ORSet K R × FinMap K V) (d : ORMapDelta K V Δ R) :
    applyDelta acc d = d.ops.foldl replay acc := by
  cases d with
  | put keys key value | update keys values | remove keys => rfl
  | group ops => exact applyDeltas_eq_foldl acc ops

lemma applyDeltas_eq_foldl (acc : ORSet K R × FinMap K V) (ops : List (ORMapDelta K V Δ R)) :
    applyDeltas acc ops = (ORMapDelta.opsOf ops).foldl replay acc := by
  cases ops with
  | nil => rfl
  | cons op ops =>
    rw [applyDeltas, ORMapDelta.opsOf, List.foldl_append, ← applyDelta_eq_foldl]
    exact applyDeltas_eq_foldl _ ops

end

/-! ## What the operations do -/

lemma updated_eq (s : ORMap K V Δ R) (replica : R) (key : K) (initial : V) (modify : V → V) :
    ∃ keyDelta value op, (s.keys.resetDelta.add replica key).delta = some keyDelta ∧
      (op = .put keyDelta key value ∨ ∃ valueDelta, op = .update keyDelta
        (Finmap.singleton key valueDelta)) ∧
      s.updated replica key initial modify = ⟨s.keys.resetDelta.add replica key,
        s.values.insert key value, some (.mergeOptional s.delta op)⟩ := by
  refine ⟨_, modify (DeltaReplicatedData.resetDelta ((s.values.lookup key).getD initial)),
    _, rfl, ?_, rfl⟩
  split
  · exact .inr ⟨_, rfl⟩
  · exact .inl rfl

omit [DeltaReplicatedData V Δ] in
lemma remove_cases {s t : ORMap K V Δ R} {replica : R} {key : K}
    (h : s.remove replica key = some t) :
    t = s ∨ s.keys.contains key = true ∧
      t = ⟨s.keys.resetDelta.remove replica key, s.values.erase key, some (.mergeOptional s.delta
        (.remove (.remove ⟨key, s.keys.versionVector,
          .one replica (s.keys.versionVector.versionAt replica)⟩)))⟩ := by
  unfold remove at h
  split_ifs at h
  · exact .inl (some.inj h).symm
  · obtain ⟨keyDelta, hdelta, rfl⟩ := map_eq_some_iff.mp h
    unfold ORSet.remove at hdelta
    split_ifs at hdelta with hcontains
    · refine .inr ⟨hcontains, ?_⟩
      rw [← some.inj hdelta]
      rfl
    · cases hdelta

lemma lookup_merge (s t : ORMap K V Δ R) (key : K) :
    (s.merge t).values.lookup key = if (s.keys.merge t.keys).contains key then
      Option.merge DeltaReplicatedData.merge (s.values.lookup key) (t.values.lookup key)
      else none := by
  rw [merge, FinMap.lookup_tabulate]
  exact if_congr (Finmap.mem_keys.trans FinMap.mem_iff_isSome) rfl rfl

end ORMap

end Kairo.DistributedData
