import Kairo.DistributedData.ORSetHistory
import Kairo.DistributedData.Pruning

/-!
# Pruning of observed-remove sets

A removed replica's dots are dropped, and every element that had one gets a fresh dot of the surviving
replica.  `pruningCleanup` only drops, which is how late data is suppressed after a pruning.
-/

namespace Kairo.DistributedData

open Kairo.Lib VersionVector FinMap Option Cluster

/-! ## Version vectors -/

namespace VersionVector

variable {R : Type*} [DecidableEq R]

def modifiedByReplicaIds (v : VersionVector R) : Finset R := v.entries.keys

def needPruningFrom (v : VersionVector R) (removed : R) : Bool := (v.entries.lookup removed).isSome

def pruningCleanup (v : VersionVector R) (removed : R) : VersionVector R := ⟨v.entries.erase removed⟩

def prune (v : VersionVector R) (removed collapseInto : R) : VersionVector R :=
  (v.pruningCleanup removed).increment collapseInto

variable {v : VersionVector R} {removed r : R} {n : ℕ}

lemma needPruningFrom_iff : v.needPruningFrom removed = true ↔ ∃ n, v.Has removed n :=
  isSome_iff_exists

lemma has_pruningCleanup : (v.pruningCleanup removed).Has r n ↔ r ≠ removed ∧ v.Has r n := by
  rw [Has, pruningCleanup, lookup_erase]
  split_ifs with h
  · simp [h]
  · exact ⟨fun hn => ⟨h, hn⟩, fun hn => hn.2⟩

lemma versionAt_pruningCleanup (v : VersionVector R) (removed r : R) :
    (v.pruningCleanup removed).versionAt r = if r = removed then 0 else v.versionAt r := by
  rw [versionAt, count, pruningCleanup, lookup_erase]
  split_ifs <;> rfl

lemma versionAt_prune (v : VersionVector R) (removed collapseInto r : R) :
    (v.prune removed collapseInto).versionAt r =
      if r = collapseInto then
        min ((if collapseInto = removed then 0 else v.versionAt collapseInto) + 1) u64Max
      else if r = removed then 0 else v.versionAt r := by
  rw [prune, versionAt_increment, versionAt_pruningCleanup, versionAt_pruningCleanup]

lemma Positive.pruningCleanup (hv : v.Positive) (removed : R) :
    (v.pruningCleanup removed).Positive :=
  fun r h => hv r (has_pruningCleanup.mp h).2

lemma Positive.prune (hv : v.Positive) (removed collapseInto : R) :
    (v.prune removed collapseInto).Positive :=
  (hv.pruningCleanup removed).increment collapseInto

lemma has_increment {q : R} :
    (v.increment q).Has r n ↔
      if r = q then n = min (v.versionAt q + 1) u64Max else v.Has r n := by
  rw [Has, increment, lookup_insert]
  split_ifs with h
  · rw [some_inj, eq_comm]
  · rfl

end VersionVector

/-! ## Adding a list of elements -/

namespace ORSetCore

variable {T R : Type*} [DecidableEq T] [DecidableEq R] {s : ORSetCore T R} {x y : T} {q r : R} {n : ℕ}
  {xs : List T}

def addAll (s : ORSetCore T R) (q : R) (xs : List T) : ORSetCore T R :=
  xs.foldl (fun current x => current.add q x) s

lemma addAll_cons (s : ORSetCore T R) (q : R) (y : T) (xs : List T) :
    s.addAll q (y :: xs) = (s.add q y).addAll q xs := rfl

lemma versionAt_add (s : ORSetCore T R) (q : R) (y : T) (r : R) :
    (s.add q y).versionVector.versionAt r =
      if r = q then min (s.versionVector.versionAt q + 1) u64Max
      else s.versionVector.versionAt r :=
  versionAt_increment _ _ _

lemma contains_add : (s.add q y).contains x = true ↔ x = y ∨ s.contains x = true := by
  rw [contains, add, lookup_insert]
  split_ifs with h
  · simp [h]
  · simp [h, contains]

lemma contains_addAll (xs : List T) :
    (s.addAll q xs).contains x = true ↔ x ∈ xs ∨ s.contains x = true := by
  induction xs generalizing s with
  | nil => simp [addAll]
  | cons y xs ih =>
    rw [addAll_cons, ih, contains_add, List.mem_cons]
    tauto

lemma versionAt_addAll_of_ne (h : r ≠ q) (xs : List T) :
    (s.addAll q xs).versionVector.versionAt r = s.versionVector.versionAt r := by
  induction xs generalizing s with
  | nil => rfl
  | cons y xs ih =>
    rw [addAll_cons, ih, versionAt_add, if_neg h]

lemma versionAt_le_addAll (hs : s.versionVector.versionAt q ≤ u64Max) (xs : List T) :
    s.versionVector.versionAt q ≤ (s.addAll q xs).versionVector.versionAt q := by
  induction xs generalizing s with
  | nil => exact le_rfl
  | cons y xs ih =>
    have hadd := versionAt_add s q y q
    rw [if_pos rfl] at hadd
    have hrest := ih (s := s.add q y) (by omega)
    rw [addAll_cons]
    omega

lemma hasDot_addAll_of_notMem (hx : x ∉ xs) : (s.addAll q xs).HasDot x r n ↔ s.HasDot x r n := by
  induction xs generalizing s with
  | nil => rfl
  | cons y xs ih =>
    rw [List.mem_cons, not_or] at hx
    rw [addAll_cons, ih hx.2, hasDot_add_iff, if_neg hx.1]

/-- Every added element has one dot, of the adding replica and newer than its counter before. -/
lemma hasDot_addAll_of_mem (hx : x ∈ xs) (hs : s.versionVector.versionAt q ≤ u64Max) :
    ∃ k, min (s.versionVector.versionAt q + 1) u64Max ≤ k ∧
      k ≤ (s.addAll q xs).versionVector.versionAt q ∧
      ∀ r n, (s.addAll q xs).HasDot x r n ↔ r = q ∧ n = k := by
  induction xs generalizing s with
  | nil => cases hx
  | cons y xs ih =>
    have hadd := versionAt_add s q y q
    rw [if_pos rfl] at hadd
    have hs' : (s.add q y).versionVector.versionAt q ≤ u64Max := by omega
    rw [addAll_cons]
    by_cases hmem : x ∈ xs
    · obtain ⟨k, hlo, hhi, hdots⟩ := ih hmem hs'
      exact ⟨k, by omega, hhi, hdots⟩
    · obtain rfl : x = y := (List.mem_cons.mp hx).resolve_right hmem
      refine ⟨_, le_rfl, ?_, fun r n => ?_⟩
      · have hgrow := versionAt_le_addAll hs' xs
        omega
      · rw [hasDot_addAll_of_notMem hmem, hasDot_add_iff, if_pos rfl]

end ORSetCore

/-! ## Sets -/

section

variable {T R : Type*} [LinearOrder T] [DecidableEq R]

namespace ORSetCore

/-- The elements with a dot of the replica. -/
def touched (s : ORSetCore T R) (removed : R) : Finset T :=
  s.elements.keys.filter fun x => (s.elements.lookup x).any (·.needPruningFrom removed)

/-- The set with the removed replica's dots collapsed, before the touched elements are added again. -/
def pruneBase (s : ORSetCore T R) (removed collapseInto : R) : ORSetCore T R where
  elements := FinMap.tabulate s.elements.keys fun x => (s.elements.lookup x).map fun dots =>
    if dots.needPruningFrom removed then dots.prune removed collapseInto else dots
  versionVector := s.versionVector.prune removed collapseInto

/-- The touched elements are added again, in their order. -/
def prune (s : ORSetCore T R) (removed collapseInto : R) : ORSetCore T R :=
  (s.pruneBase removed collapseInto).addAll collapseInto (ordered (s.touched removed))

def pruningCleanup (s : ORSetCore T R) (removed : R) : ORSetCore T R where
  elements := FinMap.tabulate s.elements.keys fun x => (s.elements.lookup x).bind fun dots =>
    nonEmpty (if dots.needPruningFrom removed then dots.pruningCleanup removed else dots)
  versionVector := s.versionVector.pruningCleanup removed

end ORSetCore

namespace ORSet

def modifiedByReplicaIds (s : ORSet T R) : Finset R := s.versionVector.modifiedByReplicaIds

def needPruningFrom (s : ORSet T R) (removed : R) : Bool := s.versionVector.needPruningFrom removed

/-- The delta of a pruning holds the adds of the touched elements. -/
def prune (s : ORSet T R) (removed collapseInto : R) : ORSet T R :=
  (ordered (s.touched removed)).foldl (fun current x => current.add collapseInto x)
    ⟨s.toORSetCore.pruneBase removed collapseInto, none⟩

def pruningCleanup (s : ORSet T R) (removed : R) : ORSet T R :=
  ⟨s.toORSetCore.pruningCleanup removed, none⟩

instance : RemovedNodePruning (ORSet T R) R where
  modifiedByReplicaIds := modifiedByReplicaIds
  needPruningFrom := needPruningFrom
  prune s removed collapseInto := .ok (s.prune removed collapseInto)
  pruningCleanup := pruningCleanup

lemma toORSetCore_prune (s : ORSet T R) (removed collapseInto : R) :
    (s.prune removed collapseInto).toORSetCore = s.toORSetCore.prune removed collapseInto := by
  have hfold : ∀ (xs : List T) (t : ORSet T R),
      (xs.foldl (fun current x => current.add collapseInto x) t).toORSetCore =
        t.toORSetCore.addAll collapseInto xs := by
    intro xs
    induction xs with
    | nil => exact fun t => rfl
    | cons x xs ih => exact fun t => ih (t.add collapseInto x)
  exact hfold _ _

end ORSet

namespace ORSetCore

variable {s : ORSetCore T R} {removed collapseInto r : R} {x : T} {n : ℕ}

lemma mem_touched : x ∈ s.touched removed ↔ ∃ n, s.HasDot x removed n := by
  rw [touched, Finset.mem_filter, Finmap.mem_keys, mem_iff_isSome]
  cases hl : s.elements.lookup x with
  | none => simp [HasDot, hl]
  | some dots => simp [HasDot, hl, needPruningFrom_iff]

lemma lookup_pruneBase (s : ORSetCore T R) (removed collapseInto : R) (x : T) :
    (s.pruneBase removed collapseInto).elements.lookup x = (s.elements.lookup x).map fun dots =>
      if dots.needPruningFrom removed then dots.prune removed collapseInto else dots :=
  lookup_tabulate_keys fun h => by rw [h]; rfl

lemma contains_pruneBase : (s.pruneBase removed collapseInto).contains x = s.contains x := by
  rw [contains, lookup_pruneBase, isSome_map, contains]

lemma hasDot_pruneBase_of_notMem (hx : x ∉ s.touched removed) :
    (s.pruneBase removed collapseInto).HasDot x r n ↔ s.HasDot x r n := by
  unfold HasDot
  rw [lookup_pruneBase]
  cases hd : s.elements.lookup x with
  | none => simp
  | some dots =>
    have hp : dots.needPruningFrom removed = false := by
      by_contra hp
      rw [Bool.not_eq_false, needPruningFrom_iff] at hp
      obtain ⟨m, hm⟩ := hp
      exact hx (mem_touched.mpr ⟨m, dots, hd, hm⟩)
    simp [hp]

lemma lookup_pruningCleanup (s : ORSetCore T R) (removed : R) (x : T) :
    (s.pruningCleanup removed).elements.lookup x = (s.elements.lookup x).bind fun dots =>
      nonEmpty (if dots.needPruningFrom removed then dots.pruningCleanup removed else dots) :=
  lookup_tabulate_keys fun h => by rw [h]; rfl

/-- A cleanup drops the dots of the replica and no others. -/
lemma hasDot_pruningCleanup :
    (s.pruningCleanup removed).HasDot x r n ↔ r ≠ removed ∧ s.HasDot x r n := by
  have hdots : ∀ dots : VersionVector R,
      (if dots.needPruningFrom removed then dots.pruningCleanup removed else dots).Has r n ↔
        r ≠ removed ∧ dots.Has r n := by
    intro dots
    split_ifs with hp
    · exact has_pruningCleanup
    · refine ⟨fun h => ⟨?_, h⟩, fun h => h.2⟩
      rintro rfl
      exact hp (needPruningFrom_iff.mpr ⟨n, h⟩)
  constructor
  · rintro ⟨dots', hd', hn⟩
    rw [lookup_pruningCleanup, bind_eq_some_iff] at hd'
    obtain ⟨dots, hd, he⟩ := hd'
    obtain ⟨rfl, -⟩ := nonEmpty_eq_some he
    exact ⟨((hdots dots).mp hn).1, dots, hd, ((hdots dots).mp hn).2⟩
  · rintro ⟨hne, dots, hd, hn⟩
    have hn' := (hdots dots).mpr ⟨hne, hn⟩
    refine ⟨_, ?_, hn'⟩
    rw [lookup_pruningCleanup, hd, bind_some, nonEmpty, if_neg]
    exact fun he => isEmpty_iff.mp he r n hn'

lemma inhabited_pruningCleanup : (s.pruningCleanup removed).Inhabited := by
  intro x hx
  obtain ⟨dots', hd'⟩ := contains_iff.mp hx
  have hd := hd'
  rw [lookup_pruningCleanup, bind_eq_some_iff] at hd
  obtain ⟨dots, -, he⟩ := hd
  obtain ⟨rfl, r, n, hn⟩ := nonEmpty_eq_some he
  exact ⟨r, n, _, hd', hn⟩

end ORSetCore

end

end Kairo.DistributedData
