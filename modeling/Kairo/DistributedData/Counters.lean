import Kairo.DistributedData.Envelope
import Kairo.DistributedData.ORSetPruning

/-!
# Counters

The grow-only counter, with one 128-bit component per replica, and the counter that also goes down,
which is a pair of them.  Values are checked sums: a total beyond the range is an error.
-/

namespace Kairo.DistributedData

open Kairo.Lib RemovedNodePruning

/-- Largest value of the unsigned 128-bit components. -/
def u128Max : ℕ := 2 ^ 128 - 1

/-- Largest value of signed 128-bit results. -/
def i128Max : ℕ := 2 ^ 127 - 1

def checkedAdd (a b : ℕ) : Except CrdtError ℕ :=
  if a + b ≤ u128Max then .ok (a + b) else .error .counterOverflow

/-! ## Grow-only counters -/

/-- The components, and those of the increments since the last reset. -/
structure GCounter (R : Type*) where
  state : FinMap R ℕ
  delta : Option (FinMap R ℕ)
  deriving DecidableEq

namespace GCounter

section Basic

variable {R : Type*} [DecidableEq R]

def new : GCounter R := ⟨∅, none⟩

def replicaValue (c : GCounter R) (replica : R) : ℕ := c.state.count replica

/-- An increment records the absolute value of the component as delta. -/
def increment (c : GCounter R) (replica : R) (amount : ℕ) : Except CrdtError (GCounter R) :=
  if amount = 0 then .ok c
  else
    match checkedAdd (c.replicaValue replica) amount with
    | .error e => .error e
    | .ok next => .ok ⟨c.state.insert replica next, some ((c.delta.getD ∅).insert replica next)⟩

def merge (c other : GCounter R) : GCounter R := ⟨c.state.raise other.state, none⟩

def resetDelta (c : GCounter R) : GCounter R := { c with delta := none }

def Positive (c : GCounter R) : Prop := c.state.Positive

instance (c : GCounter R) : Decidable c.Positive := inferInstanceAs (Decidable c.state.Positive)

instance : DeltaReplicatedData (GCounter R) (GCounter R) where
  merge := merge
  delta c := c.delta.map fun d => ⟨d, none⟩
  mergeDelta := merge
  resetDelta := resetDelta
  zero _ := new
  mergeDeltas := merge

def needPruningFrom (c : GCounter R) (removed : R) : Bool := (c.state.lookup removed).isSome

/-- Without a component of the removed replica nothing changes. -/
def prune (c : GCounter R) (removed collapseInto : R) : Except CrdtError (GCounter R) :=
  match c.state.lookup removed with
  | none => .ok c
  | some removedValue =>
    match checkedAdd (c.replicaValue collapseInto) removedValue with
    | .error e => .error e
    | .ok next => .ok ⟨(c.state.erase removed).insert collapseInto next, none⟩

def pruningCleanup (c : GCounter R) (removed : R) : GCounter R := ⟨c.state.erase removed, none⟩

instance : RemovedNodePruning (GCounter R) R where
  modifiedByReplicaIds c := c.state.keys
  needPruningFrom := needPruningFrom
  prune := prune
  pruningCleanup := pruningCleanup

instance : LawfulPruning (GCounter R) (GCounter R) R where
  needPruningFrom_merge _ _ _ h := FinMap.isSome_lookup_raise h
  needPruningFrom_cleanup c removed r h := by
    have h' : ((c.state.erase removed).lookup r).isSome := h
    rw [FinMap.lookup_erase] at h'
    split_ifs at h' with hr
    · cases h'
    · exact ⟨hr, h'⟩

end Basic

variable {R : Type*} [LinearOrder R]

def components (c : GCounter R) : List ℕ := (ordered c.state.keys).map c.replicaValue

/-- The checked sum of the components. -/
def value (c : GCounter R) : Except CrdtError ℕ :=
  c.components.foldl (fun sum component => sum.bind (checkedAdd · component)) (.ok 0)

/-- A partial sum out of range leaves the range for good, so only the total counts. -/
lemma foldl_checkedAdd (xs : List ℕ) (sum : ℕ) (hsum : sum ≤ u128Max) :
    xs.foldl (fun sum component => sum.bind (checkedAdd · component)) (.ok sum) =
      checkedAdd sum xs.sum := by
  have herror : ∀ (e : CrdtError) (xs : List ℕ),
      xs.foldl (fun sum component => sum.bind (checkedAdd · component)) (.error e) =
        (.error e : Except CrdtError ℕ) := by
    intro e xs
    induction xs with
    | nil => rfl
    | cons x xs ih => exact ih
  induction xs generalizing sum with
  | nil => simp [checkedAdd, hsum]
  | cons x xs ih =>
    have hstep : (Except.ok sum).bind (checkedAdd · x) = checkedAdd sum x := rfl
    rw [List.foldl_cons, List.sum_cons, hstep]
    by_cases hx : sum + x ≤ u128Max
    · have hadd : checkedAdd sum x = .ok (sum + x) := if_pos hx
      rw [hadd, ih (sum + x) hx, checkedAdd, checkedAdd, add_assoc]
    · have hadd : checkedAdd sum x = .error .counterOverflow := if_neg hx
      rw [hadd, herror, checkedAdd, if_neg (by omega)]

/-- The value of a counter is its total, when that is in range. -/
lemma value_eq (c : GCounter R) : c.value = checkedAdd 0 c.state.total := by
  have hsum : c.components.sum = c.state.total := by
    have hperm := (Finset.sort_perm_toList c.state.keys (· ≤ ·)).map c.replicaValue
    rw [components, ordered, hperm.sum_eq, Finset.sum_map_toList]
    rfl
  rw [value, foldl_checkedAdd _ _ (Nat.zero_le _), hsum]

end GCounter

/-! ## Counters that go up and down -/

structure PNCounter (R : Type*) where
  increments : GCounter R
  decrements : GCounter R
  deriving DecidableEq

namespace PNCounter

section Basic

variable {R : Type*} [DecidableEq R]

def new : PNCounter R := ⟨.new, .new⟩

variable (c : PNCounter R)

def increment (replica : R) (amount : ℕ) : Except CrdtError (PNCounter R) :=
  (c.increments.increment replica amount).map ({ c with increments := · })

def decrement (replica : R) (amount : ℕ) : Except CrdtError (PNCounter R) :=
  (c.decrements.increment replica amount).map ({ c with decrements := · })

/-- A negative amount goes to the decrements. -/
def change (replica : R) (amount : ℤ) : Except CrdtError (PNCounter R) :=
  if 0 ≤ amount then c.increment replica amount.natAbs else c.decrement replica amount.natAbs

def merge (c other : PNCounter R) : PNCounter R :=
  ⟨c.increments.merge other.increments, c.decrements.merge other.decrements⟩

def resetDelta : PNCounter R := ⟨c.increments.resetDelta, c.decrements.resetDelta⟩

def Positive : Prop := c.increments.Positive ∧ c.decrements.Positive

instance : DeltaReplicatedData (PNCounter R) (PNCounter R) where
  merge := merge
  delta c := some ⟨⟨c.increments.delta.getD ∅, none⟩, ⟨c.decrements.delta.getD ∅, none⟩⟩
  mergeDelta := merge
  resetDelta := resetDelta
  zero _ := new
  mergeDeltas := merge

def needPruningFrom (removed : R) : Bool :=
  c.increments.needPruningFrom removed || c.decrements.needPruningFrom removed

def prune (removed collapseInto : R) : Except CrdtError (PNCounter R) :=
  (c.increments.prune removed collapseInto).bind fun increments =>
    (c.decrements.prune removed collapseInto).map fun decrements => ⟨increments, decrements⟩

def pruningCleanup (removed : R) : PNCounter R :=
  ⟨c.increments.pruningCleanup removed, c.decrements.pruningCleanup removed⟩

instance : RemovedNodePruning (PNCounter R) R where
  modifiedByReplicaIds c := c.increments.state.keys ∪ c.decrements.state.keys
  needPruningFrom := needPruningFrom
  prune := prune
  pruningCleanup := pruningCleanup

instance : LawfulPruning (PNCounter R) (PNCounter R) R where
  needPruningFrom_merge a b r h := by
    have h' : (a.increments.merge b.increments).needPruningFrom r = true ∨
        (a.decrements.merge b.decrements).needPruningFrom r = true := (Bool.or_eq_true _ _).mp h
    have hor : ∀ c : PNCounter R, RemovedNodePruning.needPruningFrom c r = true ↔
        c.increments.needPruningFrom r = true ∨ c.decrements.needPruningFrom r = true :=
      fun c => Iff.of_eq (Bool.or_eq_true _ _)
    rw [hor, hor]
    rcases h' with h' | h'
    · exact (FinMap.isSome_lookup_raise h').imp .inl .inl
    · exact (FinMap.isSome_lookup_raise h').imp .inr .inr
  needPruningFrom_cleanup c removed r h := by
    have h' : (c.increments.pruningCleanup removed).needPruningFrom r = true ∨
        (c.decrements.pruningCleanup removed).needPruningFrom r = true := (Bool.or_eq_true _ _).mp h
    have hlaw := @LawfulPruning.needPruningFrom_cleanup (GCounter R) _ _ _ _ _
    rcases h' with h' | h'
    · exact ⟨(hlaw _ _ _ h').1, (Bool.or_eq_true _ _).mpr (.inl (hlaw _ _ _ h').2)⟩
    · exact ⟨(hlaw _ _ _ h').1, (Bool.or_eq_true _ _).mpr (.inr (hlaw _ _ _ h').2)⟩

end Basic

variable {R : Type*} [LinearOrder R]

def toSigned (total : ℕ) : Except CrdtError ℤ :=
  if total ≤ i128Max then .ok total else .error .counterValueOutOfRange

def value (c : PNCounter R) : Except CrdtError ℤ :=
  (c.increments.value.bind toSigned).bind fun increments =>
    (c.decrements.value.bind toSigned).map fun decrements => increments - decrements

end PNCounter

/-! ## Sets -/

section

variable {T R : Type*} [LinearOrder T] [DecidableEq R]

instance : LawfulPruning (ORSet T R) (ORSetDelta T R) R where
  needPruningFrom_merge _ _ _ h := FinMap.isSome_lookup_raise h
  needPruningFrom_cleanup s removed r h := by
    have h' : ((s.versionVector.entries.erase removed).lookup r).isSome := h
    rw [FinMap.lookup_erase] at h'
    split_ifs at h' with hr
    · cases h'
    · exact ⟨hr, h'⟩

end

end Kairo.DistributedData
