import Kairo.Lib.FinMap
import Kairo.Cluster.Member

/-!
# Pruning of removed replicas

What a data type offers for the removal of a departed replica (`RemovedNodePruning`), and the marker
that replicas disseminate about it.  A marker is first initialized, with an owner and the replicas
that have seen it, and later performed, with a deadline until which late data is suppressed.
-/

namespace Kairo.DistributedData

open Kairo.Lib FinMap Option

inductive CrdtError
  | counterOverflow
  | counterValueOutOfRange
  deriving DecidableEq, Repr

/-- Data that can give up the state of a departed replica. -/
class RemovedNodePruning (D : Type*) (R : outParam (Type*)) where
  modifiedByReplicaIds : D → Finset R
  needPruningFrom : D → R → Bool
  /-- Collapses the state of the removed replica into a surviving one. -/
  prune : D → R → R → Except CrdtError D
  pruningCleanup : D → R → D

/-! ## Markers -/

structure PruningInitialized (R : Type*) where
  owner : R
  seen : Finset R
  deriving DecidableEq

structure PruningPerformed where
  obsoleteAtMillis : ℕ
  deriving DecidableEq, Repr

inductive PruningState (R : Type*)
  | initialized (marker : PruningInitialized R)
  | performed (marker : PruningPerformed)
  deriving DecidableEq

namespace PruningInitialized

variable {R : Type*} [LinearOrder R]

def new (owner : R) : PruningInitialized R := ⟨owner, ∅⟩

/-- The owner has seen the marker anyway. -/
def addSeen (m : PruningInitialized R) (node : R) : PruningInitialized R :=
  if node = m.owner ∨ node ∈ m.seen then m else { m with seen := insert node m.seen }

def isSeenByAll (m : PruningInitialized R) (live : Finset R) : Bool :=
  decide (∀ r ∈ live, r = m.owner ∨ r ∈ m.seen)

/-- Of two owners the smaller one wins. -/
def merge (m other : PruningInitialized R) : PruningInitialized R :=
  if m.owner = other.owner then ⟨m.owner, m.seen ∪ other.seen⟩
  else if m.owner < other.owner then m else other

variable (a b c : PruningInitialized R)

lemma merge_comm : a.merge b = b.merge a := by
  unfold merge
  rcases lt_trichotomy a.owner b.owner with h | h | h
  · rw [if_neg h.ne, if_pos h, if_neg h.ne', if_neg h.not_gt]
  · rw [if_pos h, if_pos h.symm, h, Finset.union_comm]
  · rw [if_neg h.ne', if_neg h.not_gt, if_neg h.ne, if_pos h]

lemma merge_assoc : (a.merge b).merge c = a.merge (b.merge c) := by
  unfold merge
  grind [Finset.union_assoc]

end PruningInitialized

/-- The deadline is inclusive. -/
def PruningPerformed.isObsolete (m : PruningPerformed) (now : ℕ) : Bool :=
  decide (m.obsoleteAtMillis ≤ now)

namespace PruningState

variable {R : Type*} [LinearOrder R]

def addSeen (node : R) : PruningState R → PruningState R
  | initialized m => initialized (m.addSeen node)
  | performed m => performed m

/-- Performed beats initialized, and the later deadline wins. -/
def merge : PruningState R → PruningState R → PruningState R
  | performed m, performed m' =>
    if m'.obsoleteAtMillis ≤ m.obsoleteAtMillis then performed m else performed m'
  | performed m, initialized _ => performed m
  | initialized _, performed m => performed m
  | initialized m, initialized m' => initialized (m.merge m')

def isPerformed : PruningState R → Bool
  | initialized _ => false
  | performed _ => true

def isObsolete (now : ℕ) : PruningState R → Bool
  | initialized _ => false
  | performed m => m.isObsolete now

/-! ### Laws of the merge -/

lemma merge_performed (m m' : PruningPerformed) : (performed m : PruningState R).merge (performed m') =
    performed ⟨max m.obsoleteAtMillis m'.obsoleteAtMillis⟩ := by
  rw [merge]
  split_ifs with h
  · rw [max_eq_left h]
  · rw [max_eq_right (not_le.mp h).le]

variable (a b c : PruningState R)

lemma merge_self : a.merge a = a := by
  cases a with
  | initialized m => simp [merge, PruningInitialized.merge]
  | performed m => rw [merge_performed, max_self]

lemma merge_comm : a.merge b = b.merge a := by
  cases a with
  | initialized m =>
    cases b with
    | initialized m' => exact congrArg initialized (m.merge_comm m')
    | performed m' => rfl
  | performed m =>
    cases b with
    | initialized m' => rfl
    | performed m' => rw [merge_performed, merge_performed, max_comm]

lemma merge_assoc : (a.merge b).merge c = a.merge (b.merge c) := by
  cases a <;> cases b <;> cases c <;> grind [merge, PruningInitialized.merge_assoc]

end PruningState

/-! ## Tables of markers -/

structure PruningTable (R : Type*) where
  states : FinMap R (PruningState R)
  deriving DecidableEq

namespace PruningTable

variable {R : Type*} [LinearOrder R]

def new : PruningTable R := ⟨∅⟩

def get (t : PruningTable R) (removed : R) : Option (PruningState R) := t.states.lookup removed

/-- A fresh marker replaces the one that stands. -/
def initializeFor (t : PruningTable R) (removed owner : R) : PruningTable R :=
  ⟨t.states.insert removed (.initialized (.new owner))⟩

def markAllSeenBy (t : PruningTable R) (node : R) : PruningTable R :=
  ⟨FinMap.tabulate t.states.keys fun removed => (t.get removed).map (·.addSeen node)⟩

/-- The initialized entry of a replica is owned by `owner` and seen by every live replica. -/
def isReady (t : PruningTable R) (owner : R) (live : Finset R) (removed : R) : Bool :=
  match t.get removed with
  | some (.initialized m) => m.owner = owner && m.isSeenByAll live
  | _ => false

def readyToPerform (t : PruningTable R) (owner : R) (live : Finset R) : Finset R :=
  t.states.keys.filter (t.isReady owner live ·)

def markPerformed (t : PruningTable R) (removed : R) (obsoleteAtMillis : ℕ) : PruningTable R :=
  ⟨t.states.insert removed (.performed ⟨obsoleteAtMillis⟩)⟩

/-- The table without its obsolete markers, and the replicas these were about. -/
def removeObsoletePerformed (t : PruningTable R) (now : ℕ) : PruningTable R × Finset R :=
  (⟨FinMap.tabulate t.states.keys fun removed => (t.get removed).filter (!·.isObsolete now)⟩,
    t.states.keys.filter fun removed => (t.get removed).any (·.isObsolete now))

def merge (t other : PruningTable R) : PruningTable R :=
  ⟨FinMap.tabulate (t.states.keys ∪ other.states.keys) fun removed =>
    match t.get removed, other.get removed with
    | some m, some m' => some (m.merge m')
    | some m, none | none, some m => some m
    | none, none => none⟩

def mergeWithoutObsolete (t other : PruningTable R) (now : ℕ) : PruningTable R :=
  ((t.merge other).removeObsoletePerformed now).1

/-! ### Reading a table -/

variable (t other : PruningTable R) (removed r : R)

lemma mem_keys {t : PruningTable R} {r : R} : r ∈ t.states.keys ↔ (t.get r).isSome := by
  rw [Finmap.mem_keys, mem_iff_isSome, get]

lemma get_initializeFor (owner : R) :
    (t.initializeFor removed owner).get r =
      if r = removed then some (.initialized (.new owner)) else t.get r :=
  lookup_insert _ _ _ _

lemma get_markPerformed (deadline : ℕ) :
    (t.markPerformed removed deadline).get r =
      if r = removed then some (.performed ⟨deadline⟩) else t.get r :=
  lookup_insert _ _ _ _

lemma get_tabulate (f : Option (PruningState R) → Option (PruningState R)) (hf : f none = none) :
    (⟨tabulate t.states.keys fun removed => f (t.get removed)⟩ : PruningTable R).get r =
      f (t.get r) :=
  lookup_tabulate_keys fun h => by rw [get, h, hf]

lemma get_markAllSeenBy (node : R) :
    (t.markAllSeenBy node).get r = (t.get r).map (·.addSeen node) :=
  t.get_tabulate r (Option.map (PruningState.addSeen node)) rfl

lemma get_removeObsoletePerformed (now : ℕ) :
    (t.removeObsoletePerformed now).1.get r = (t.get r).filter (!·.isObsolete now) :=
  t.get_tabulate r (Option.filter (!·.isObsolete now)) rfl

lemma get_merge :
    (t.merge other).get r =
      match t.get r, other.get r with
      | some m, some m' => some (m.merge m')
      | some m, none | none, some m => some m
      | none, none => none :=
  lookup_tabulate_union fun h h' => by rw [get, get, h, h']

lemma get_mergeWithoutObsolete (now : ℕ) :
    (t.mergeWithoutObsolete other now).get r =
      ((t.merge other).get r).filter (!·.isObsolete now) :=
  get_removeObsoletePerformed _ _ _

/-! ### Laws of the merge -/

variable {t other}

lemma ext_get (h : ∀ r, t.get r = other.get r) : t = other := by
  cases t
  exact congrArg _ (Finmap.ext_lookup h)

lemma merge_self (t : PruningTable R) : t.merge t = t := by
  refine ext_get fun r => ?_
  rw [get_merge]
  cases t.get r with
  | none => rfl
  | some m => exact congrArg some m.merge_self

/-- **Markers form a join semilattice**, and so do tables of them; a performed marker is above the
initialized ones, and the replicas that have seen a marker of one owner are united. -/
theorem merge_semilattice :
    (∀ a b c : PruningState R, a.merge b = b.merge a ∧ (a.merge b).merge c = a.merge (b.merge c) ∧
      a.merge a = a) ∧
    (∀ s t u : PruningTable R, s.merge t = t.merge s ∧ (s.merge t).merge u = s.merge (t.merge u) ∧
      s.merge s = s) ∧
    (∀ (m : PruningInitialized R) m', (PruningState.initialized m).merge (.performed m') =
      .performed m') ∧
    ∀ (owner : R) (seen seen' : Finset R),
      (PruningState.initialized ⟨owner, seen⟩).merge (.initialized ⟨owner, seen'⟩) =
        .initialized ⟨owner, seen ∪ seen'⟩ := by
  refine ⟨fun a b c => ⟨a.merge_comm b, a.merge_assoc b c, a.merge_self⟩,
    fun s t u => ⟨ext_get fun r => ?_, ext_get fun r => ?_, s.merge_self⟩, fun _ _ => rfl,
    fun owner seen seen' => ?_⟩
  · rw [get_merge, get_merge]
    cases s.get r with
    | none => cases t.get r <;> rfl
    | some m =>
      cases t.get r with
      | none => rfl
      | some m' => exact congrArg some (m.merge_comm m')
  · simp only [get_merge]
    cases s.get r <;> cases t.get r <;> cases u.get r <;> simp [PruningState.merge_assoc]
  · simp [PruningState.merge, PruningInitialized.merge]

end PruningTable

end Kairo.DistributedData
