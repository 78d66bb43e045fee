import Kairo.Lib.Counters
import Kairo.Cluster.Member

/-!
# The observed-remove set

A set in which every add records a birth dot of the adding replica and a remove drops what it has
observed, without a tombstone.  Full states are merged by comparing each dot with the other side's
causal context.  A delta carries the operations one by one: `mergeAddDelta` and `mergeRemoveDelta`
replay them, and `ops` lists what a nested group of deltas amounts to (`mergeDelta_eq_foldl`).
-/

namespace Kairo.DistributedData

open Kairo.Lib FinMap Option

/-! ## Version vectors -/

structure VersionVector (R : Type*) where
  entries : FinMap R ℕ
  deriving DecidableEq

namespace VersionVector

variable {R : Type*} [DecidableEq R] {v : VersionVector R} {r : R}

def new : VersionVector R := ⟨∅⟩

def one (replica : R) (version : ℕ) : VersionVector R :=
  if version = 0 then new else ⟨Finmap.singleton replica version⟩

def isEmpty (v : VersionVector R) : Bool := decide (v.entries = ∅)

def versionAt (v : VersionVector R) (replica : R) : ℕ := v.entries.count replica

/-- The counters are 64-bit and saturate. -/
def increment (v : VersionVector R) (replica : R) : VersionVector R :=
  ⟨v.entries.insert replica (min (v.versionAt replica + 1) Cluster.u64Max)⟩

def merge (v other : VersionVector R) : VersionVector R := ⟨v.entries.raise other.entries⟩

def dominates (v dots : VersionVector R) : Bool :=
  decide (∀ r ∈ dots.entries.keys, dots.versionAt r ≤ v.versionAt r)

/-- The vector, read as a set of dots, holds the dot `(r, n)`. -/
def Has (v : VersionVector R) (r : R) (n : ℕ) : Prop := v.entries.lookup r = some n

lemma versionAt_merge (v other : VersionVector R) (r : R) :
    (v.merge other).versionAt r = max (v.versionAt r) (other.versionAt r) :=
  count_raise _ _ _

lemma versionAt_increment (v : VersionVector R) (replica r : R) :
    (v.increment replica).versionAt r =
      if r = replica then min (v.versionAt replica + 1) Cluster.u64Max else v.versionAt r :=
  count_insert _ _ _ _

lemma Has.versionAt {n : ℕ} (h : v.Has r n) : v.versionAt r = n := by
  rw [VersionVector.versionAt, count, h]
  rfl

lemma dominates_iff {v dots : VersionVector R} :
    v.dominates dots = true ↔ ∀ r n, dots.Has r n → n ≤ v.versionAt r := by
  rw [dominates, decide_eq_true_iff]
  constructor
  · intro h r n hn
    rw [← hn.versionAt]
    refine h r ?_
    rw [Finmap.mem_keys, mem_iff_isSome, hn]
    rfl
  · intro h r hr
    rw [Finmap.mem_keys, mem_iff_isSome] at hr
    obtain ⟨n, hn⟩ := isSome_iff_exists.mp hr
    rw [Has.versionAt hn]
    exact h r n hn

lemma isEmpty_iff : v.isEmpty = true ↔ ∀ r n, ¬ v.Has r n := by
  rw [isEmpty, decide_eq_true_iff]
  constructor
  · intro h r n hn
    rw [Has, h, Finmap.lookup_empty] at hn
    cases hn
  · intro h
    refine Finmap.ext_lookup fun r => ?_
    rw [Finmap.lookup_empty]
    exact eq_none_iff_forall_ne_some.mpr fun n hn => h r n hn

lemma has_one {replica r : R} {version n : ℕ} :
    (one replica version).Has r n ↔ version ≠ 0 ∧ r = replica ∧ n = version := by
  unfold one
  split_ifs with hv
  · simp [Has, new, hv]
  · rw [Has, lookup_singleton]
    split_ifs with h <;> simp [h, hv, eq_comm]

lemma versionAt_one (replica r : R) (version : ℕ) :
    (one replica version).versionAt r = if r = replica then version else 0 := by
  unfold one versionAt count
  split_ifs with hv h h
  · rw [hv]; rfl
  · rfl
  · rw [lookup_singleton, if_pos h]; rfl
  · rw [lookup_singleton, if_neg h]; rfl

def Positive (v : VersionVector R) : Prop := ∀ r, ¬ v.Has r 0

lemma positive_new : (new : VersionVector R).Positive := by
  intro r h
  rw [Has, new, Finmap.lookup_empty] at h
  cases h

lemma positive_one (replica : R) (version : ℕ) : (one replica version).Positive := by
  intro r h
  obtain ⟨hne, -, h0⟩ := has_one.mp h
  exact hne h0.symm

lemma Positive.increment (hv : v.Positive) (replica : R) : (v.increment replica).Positive := by
  intro r h
  rw [Has, VersionVector.increment, lookup_insert] at h
  split_ifs at h
  · have hmin := some.inj h
    have hmax : 0 < Cluster.u64Max := by decide
    omega
  · exact hv r h

lemma Positive.merge (v : VersionVector R) {w : VersionVector R} (hw : w.Positive) :
    (v.merge w).Positive :=
  FinMap.Positive.raise v.entries hw

end VersionVector

/-! ## Dots of one element -/

section

variable {R : Type*} [DecidableEq R]

/-- The dots of an element that both sides hold: the left ones that the right side holds too or has
not seen, and the right ones that the left side has not seen. -/
def mergeElementDots (left right leftContext rightContext : VersionVector R) : VersionVector R :=
  ⟨FinMap.tabulate (left.entries.keys ∪ right.entries.keys) fun r =>
    let kept := (left.entries.lookup r).filter fun v =>
      right.versionAt r = v ∨ rightContext.versionAt r < v
    ((right.entries.lookup r).filter fun v => leftContext.versionAt r < v).or kept⟩

def subtractDominatedDots (dots context : VersionVector R) : VersionVector R :=
  ⟨FinMap.tabulate dots.entries.keys fun r =>
    (dots.entries.lookup r).filter fun v => context.versionAt r < v⟩

lemma has_subtractDominatedDots {dots context : VersionVector R} {v : ℕ} :
    (subtractDominatedDots dots context).Has r v ↔ dots.Has r v ∧ context.versionAt r < v := by
  unfold subtractDominatedDots VersionVector.Has
  rw [lookup_tabulate_keys fun h => by rw [h]; rfl, filter_eq_some_iff, decide_eq_true_iff]

lemma lookup_mergeElementDots (left right leftContext rightContext : VersionVector R) (r : R) :
    (mergeElementDots left right leftContext rightContext).entries.lookup r =
      ((right.entries.lookup r).filter fun v => leftContext.versionAt r < v).or
        ((left.entries.lookup r).filter fun v =>
          right.versionAt r = v ∨ rightContext.versionAt r < v) := by
  exact lookup_tabulate_union fun hl hr => by rw [hl, hr]; rfl

lemma has_mergeElementDots {left right leftContext rightContext : VersionVector R} {v : ℕ}
    (h : (mergeElementDots left right leftContext rightContext).Has r v) :
    left.Has r v ∧ (right.versionAt r = v ∨ rightContext.versionAt r < v) ∨
      right.Has r v ∧ leftContext.versionAt r < v := by
  rw [VersionVector.Has, lookup_mergeElementDots, or_eq_some_iff] at h
  rcases h with h | ⟨-, h⟩
  · rw [filter_eq_some_iff, decide_eq_true_iff] at h
    exact .inr h
  · rw [filter_eq_some_iff, decide_eq_true_iff] at h
    exact .inl h

end

/-! ## Sets and deltas -/

/-- The elements with their birth dots, and the causal context. -/
structure ORSetCore (T R : Type*) where
  elements : FinMap T (VersionVector R)
  versionVector : VersionVector R
  deriving DecidableEq

/-- Causal context needed to replay one observed-remove operation. -/
structure ORSetRemoveDelta (T R : Type*) where
  element : T
  seen : VersionVector R
  removeDot : VersionVector R
  deriving DecidableEq

/-- Operation deltas.  The set nested in an add never has a pending delta of its own. -/
inductive ORSetDelta (T R : Type*)
  | add (set : ORSetCore T R)
  | remove (op : ORSetRemoveDelta T R)
  | group (ops : List (ORSetDelta T R))

section DecidableEq

variable {T R : Type*} [DecidableEq T] [DecidableEq R]

mutual

def ORSetDelta.decEq : (a b : ORSetDelta T R) → Decidable (a = b)
  | .add s, .add t => decidable_of_iff (s = t) (by simp)
  | .remove s, .remove t => decidable_of_iff (s = t) (by simp)
  | .group s, .group t =>
    haveI := ORSetDelta.decEqList s t
    decidable_of_iff (s = t) (by simp)
  | .add _, .remove _ | .add _, .group _ | .remove _, .add _ | .remove _, .group _ | .group _, .add _
  | .group _, .remove _ => isFalse (by simp)

def ORSetDelta.decEqList : (a b : List (ORSetDelta T R)) → Decidable (a = b)
  | [], [] => isTrue rfl
  | [], _ :: _ | _ :: _, [] => isFalse (by simp)
  | a :: as, b :: bs =>
    haveI := ORSetDelta.decEq a b
    haveI := ORSetDelta.decEqList as bs
    decidable_of_iff (a = b ∧ as = bs) (by simp)

end

instance : DecidableEq (ORSetDelta T R) := ORSetDelta.decEq

end DecidableEq

/-- Observed-remove set with the delta of the operations since its last reset. -/
structure ORSet (T R : Type*) extends ORSetCore T R where
  delta : Option (ORSetDelta T R)
  deriving DecidableEq

variable {T R : Type*} [DecidableEq T] [DecidableEq R]

namespace ORSetCore

def new : ORSetCore T R := ⟨∅, .new⟩

variable (s : ORSetCore T R)

def contains (x : T) : Bool := (s.elements.lookup x).isSome

/-- A new birth dot of the replica replaces the dots of the element. -/
def add (replica : R) (x : T) : ORSetCore T R :=
  let next := s.versionVector.increment replica
  ⟨s.elements.insert x (.one replica (next.versionAt replica)), next⟩

def remove (x : T) : ORSetCore T R := { s with elements := s.elements.erase x }

/-- An entry whose dots are empty is dropped. -/
def nonEmpty (dots : VersionVector R) : Option (VersionVector R) :=
  if dots.isEmpty then none else some dots

/-- An element that the set does not hold is taken over with all its dots. -/
def mergeAddDelta (s added : ORSetCore T R) : ORSetCore T R where
  elements := FinMap.tabulate (s.elements.keys ∪ added.elements.keys) fun x =>
    match added.elements.lookup x with
    | none => s.elements.lookup x
    | some addDots =>
      match s.elements.lookup x with
      | some existing =>
        nonEmpty (mergeElementDots existing addDots s.versionVector added.versionVector)
      | none => nonEmpty addDots
  versionVector := s.versionVector.merge added.versionVector

def mergeRemoveDelta (op : ORSetRemoveDelta T R) : ORSetCore T R where
  elements :=
    if (s.elements.lookup op.element).any op.seen.dominates then s.elements.erase op.element
    else s.elements
  versionVector := s.versionVector.merge op.removeDot

def merge (s other : ORSetCore T R) : ORSetCore T R where
  elements := FinMap.tabulate (s.elements.keys ∪ other.elements.keys) fun x =>
    match s.elements.lookup x, other.elements.lookup x with
    | some left, some right =>
      nonEmpty (mergeElementDots left right s.versionVector other.versionVector)
    | some left, none => nonEmpty (subtractDominatedDots left other.versionVector)
    | none, some right => nonEmpty (subtractDominatedDots right s.versionVector)
    | none, none => none
  versionVector := s.versionVector.merge other.versionVector

end ORSetCore

/-- Groups are concatenated. -/
def ORSetDelta.merge : ORSetDelta T R → ORSetDelta T R → ORSetDelta T R
  | .group left, .group right => .group (left ++ right)
  | .group left, right => .group (left ++ [right])
  | left, .group right => .group (left :: right)
  | left, right => .group [left, right]

def mergeOptionalDelta (existing : Option (ORSetDelta T R)) (next : ORSetDelta T R) :
    ORSetDelta T R :=
  (existing.map (·.merge next)).getD next

namespace ORSet

def new : ORSet T R := ⟨.new, none⟩

def add (s : ORSet T R) (replica : R) (x : T) : ORSet T R :=
  let dot := VersionVector.one replica ((s.versionVector.increment replica).versionAt replica)
  ⟨s.toORSetCore.add replica x,
    some (mergeOptionalDelta s.delta (.add ⟨Finmap.singleton x dot, dot⟩))⟩

/-- Removing an absent element changes nothing. -/
def remove (s : ORSet T R) (replica : R) (x : T) : ORSet T R :=
  if s.contains x then
    ⟨s.toORSetCore.remove x,
      some (mergeOptionalDelta s.delta
        (.remove ⟨x, s.versionVector, .one replica (s.versionVector.versionAt replica)⟩))⟩
  else s

def merge (s other : ORSet T R) : ORSet T R := ⟨s.toORSetCore.merge other.toORSetCore, none⟩

def resetDelta (s : ORSet T R) : ORSet T R := { s with delta := none }

mutual

def mergeDelta (s : ORSet T R) : ORSetDelta T R → ORSet T R
  | .add set => ⟨s.toORSetCore.mergeAddDelta set, none⟩
  | .remove op => ⟨s.toORSetCore.mergeRemoveDelta op, none⟩
  | .group ops => mergeDeltas s ops

def mergeDeltas (s : ORSet T R) : List (ORSetDelta T R) → ORSet T R
  | [] => s
  | op :: ops => mergeDeltas (mergeDelta s op) ops

end

end ORSet

/-! ## The operations of a delta -/

inductive SetOp (T R : Type*)
  | add (set : ORSetCore T R)
  | remove (op : ORSetRemoveDelta T R)

mutual

def ORSetDelta.ops : ORSetDelta T R → List (SetOp T R)
  | .add set => [.add set]
  | .remove op => [.remove op]
  | .group ops => ORSetDelta.opsOf ops

def ORSetDelta.opsOf : List (ORSetDelta T R) → List (SetOp T R)
  | [] => []
  | op :: ops => op.ops ++ ORSetDelta.opsOf ops

end

def ORSetCore.replay (s : ORSetCore T R) : SetOp T R → ORSetCore T R
  | .add set => s.mergeAddDelta set
  | .remove op => s.mergeRemoveDelta op

mutual

lemma ORSet.mergeDelta_eq_foldl (s : ORSet T R) (d : ORSetDelta T R) :
    (s.mergeDelta d).toORSetCore = d.ops.foldl ORSetCore.replay s.toORSetCore := by
  cases d with
  | add set | remove op => rfl
  | group ops => exact ORSet.mergeDeltas_eq_foldl s ops

lemma ORSet.mergeDeltas_eq_foldl (s : ORSet T R) (ops : List (ORSetDelta T R)) :
    (s.mergeDeltas ops).toORSetCore = (ORSetDelta.opsOf ops).foldl ORSetCore.replay s.toORSetCore := by
  cases ops with
  | nil => rfl
  | cons op ops =>
    rw [ORSet.mergeDeltas, ORSetDelta.opsOf, List.foldl_append, ← ORSet.mergeDelta_eq_foldl]
    exact ORSet.mergeDeltas_eq_foldl _ ops

end

omit [DecidableEq T] [DecidableEq R] in
lemma ORSetDelta.opsOf_append (a b : List (ORSetDelta T R)) :
    opsOf (a ++ b) = opsOf a ++ opsOf b := by
  induction a with
  | nil => rfl
  | cons op ops ih => rw [List.cons_append, opsOf, opsOf, ih, List.append_assoc]

omit [DecidableEq T] [DecidableEq R] in
lemma ORSetDelta.ops_merge (a b : ORSetDelta T R) : (a.merge b).ops = a.ops ++ b.ops := by
  cases a <;> cases b <;> simp [merge, ops, opsOf, opsOf_append]

def deltaOps (d : Option (ORSetDelta T R)) : List (SetOp T R) := d.elim [] ORSetDelta.ops

omit [DecidableEq T] [DecidableEq R] in
lemma deltaOps_mergeOptionalDelta (existing : Option (ORSetDelta T R)) (next : ORSetDelta T R) :
    deltaOps (some (mergeOptionalDelta existing next)) = deltaOps existing ++ next.ops := by
  cases existing with
  | none => rfl
  | some d => exact ORSetDelta.ops_merge d next

mutual

lemma ORSet.delta_mergeDelta (s : ORSet T R) (hs : s.delta = none) (d : ORSetDelta T R) :
    (s.mergeDelta d).delta = none := by
  cases d with
  | add set | remove op => rfl
  | group ops => exact ORSet.delta_mergeDeltas s hs ops

lemma ORSet.delta_mergeDeltas (s : ORSet T R) (hs : s.delta = none)
    (ops : List (ORSetDelta T R)) : (s.mergeDeltas ops).delta = none := by
  cases ops with
  | nil => exact hs
  | cons op ops => exact ORSet.delta_mergeDeltas _ (ORSet.delta_mergeDelta s hs op) ops

end

end Kairo.DistributedData
