import Kairo.Lib.FinMap
import Kairo.Cluster.Member

/-!
# Reachability tables

The observer-versioned table of negative observations.  Every observer advances its own row; a merge
takes the whole row of the newer version.  A pair without a record is reachable.
-/

namespace Kairo.Cluster

open Kairo.Lib List FinMap Option

inductive ReachabilityStatus
  | reachable | unreachable | terminated
  deriving DecidableEq, Repr

structure ReachabilityRecord where
  observer : UniqueAddress
  subject : UniqueAddress
  status : ReachabilityStatus
  version : ℕ
  deriving DecidableEq, Repr

def ReachabilityRecord.isNegative (r : ReachabilityRecord) : Bool :=
  match r.status with
  | .unreachable | .terminated => true
  | .reachable => false

def ReachabilityRecord.isAbout (observer subject : UniqueAddress) (r : ReachabilityRecord) : Bool :=
  decide (r.observer = observer) && decide (r.subject = subject)

structure Reachability where
  records : List ReachabilityRecord
  versions : FinMap UniqueAddress ℕ
  deriving DecidableEq

namespace Reachability

def new : Reachability := ⟨[], ∅⟩

/-- The version of an observer's row, zero when it has no history. -/
def version (r : Reachability) (observer : UniqueAddress) : ℕ :=
  (r.versions.lookup observer).getD 0

def isAllReachable (r : Reachability) : Bool := r.records.isEmpty

def isUnversionedAllReachable (r : Reachability) : Bool :=
  r.records.isEmpty && decide (r.versions = ∅)

def status (r : Reachability) (observer subject : UniqueAddress) : ReachabilityStatus :=
  ((r.records.find? (·.isAbout observer subject)).map (·.status)).getD .reachable

def statusOf (r : Reachability) (subject : UniqueAddress) : ReachabilityStatus :=
  if r.records.any fun x => x.subject = subject ∧ x.status = .terminated then .terminated
  else if r.records.any fun x => x.subject = subject ∧ x.status = .unreachable then .unreachable
  else .reachable

def allUnreachableOrTerminated (r : Reachability) : Finset UniqueAddress :=
  ((r.records.filter (·.isNegative)).map (·.subject)).toFinset

def allObservers (r : Reachability) : Finset UniqueAddress :=
  ((r.records.filter (·.isNegative)).map (·.observer)).toFinset

def observerRows (r : Reachability) (observer : UniqueAddress) : List ReachabilityRecord :=
  r.records.filter fun x => x.observer = observer

def nextVersion (r : Reachability) (observer : UniqueAddress) : ℕ := r.version observer + 1

/-- One observation.  A terminated record is final, a repeated observation changes nothing, and a
reachable observation that clears the last negative one drops the whole row of the observer. -/
def change (r : Reachability) (observer subject : UniqueAddress) (status : ReachabilityStatus) :
    Reachability :=
  let version := r.nextVersion observer
  let record : ReachabilityRecord := ⟨observer, subject, status, version⟩
  match r.records.find? (·.isAbout observer subject) with
  | none =>
    if status = .reachable then r
    else ⟨r.records ++ [record], r.versions.insert observer version⟩
  | some old =>
    if old.status = .terminated ∨ old.status = status then r
    else if status = .reachable ∧
        (r.observerRows observer).all fun x => x.subject = subject ∨ x.status = .reachable then
      ⟨r.records.filter (fun x => x.observer ≠ observer), r.versions.insert observer version⟩
    else
      -- the record at the position of the old one is overwritten
      ⟨r.records.replaceF (fun x => if x.isAbout observer subject then some record else none),
        r.versions.insert observer version⟩

def unreachable (r : Reachability) (observer subject : UniqueAddress) : Reachability :=
  r.change observer subject .unreachable

def reachable (r : Reachability) (observer subject : UniqueAddress) : Reachability :=
  r.change observer subject .reachable

def terminated (r : Reachability) (observer subject : UniqueAddress) : Reachability :=
  r.change observer subject .terminated

/-- The row a merge keeps for one observer: the left one unless the right one is newer. -/
def newerRows (r other : Reachability) (observer : UniqueAddress) : List ReachabilityRecord :=
  if other.version observer ≤ r.version observer then r.observerRows observer
  else other.observerRows observer

/-- Merges two tables row by row over the allowed observers, dropping disallowed subjects.
`allowed` lists the allowed nodes in the order in which they are visited. -/
def merge (r : Reachability) (allowed : List UniqueAddress) (other : Reachability) : Reachability :=
  if r.isUnversionedAllReachable && other.isUnversionedAllReachable then new
  else
    { records := allowed.flatMap fun o => (r.newerRows other o).filter (·.subject ∈ allowed)
      versions := FinMap.tabulate allowed.toFinset fun o =>
        if r.version o < other.version o then some (other.version o) else r.versions.lookup o }

def remove (r : Reachability) (removed : Finset UniqueAddress) : Reachability :=
  { records := r.records.filter fun x => x.observer ∉ removed ∧ x.subject ∉ removed
    versions := FinMap.retain (fun o => decide (o ∉ removed)) r.versions }

variable {r : Reachability} {α : Type*}

lemma mem_allUnreachableOrTerminated {n : UniqueAddress} :
    n ∈ r.allUnreachableOrTerminated ↔ ∃ x ∈ r.records, x.isNegative ∧ x.subject = n := by
  simp [allUnreachableOrTerminated, and_assoc]

/-! ## What one observation changes -/

lemma find?_replaceF {f : α → Option α} {p : α → Bool} {l : List α}
    (h : ∀ x y, f x = some y → p x = false ∧ p y = false) : (l.replaceF f).find? p = l.find? p := by
  rcases exists_or_eq_self_of_replaceF f l with he | ⟨a, b, l₁, l₂, -, ha, rfl, he⟩ <;> rw [he]
  rw [find?_append, find?_append, find?_cons, find?_cons, (h a b ha).1, (h a b ha).2]

lemma mem_of_mem_replaceF {f : α → Option α} {l : List α} {x : α} (h : x ∈ l.replaceF f) :
    x ∈ l ∨ ∃ y, f y = some x := by
  rcases exists_or_eq_self_of_replaceF f l with he | ⟨a, b, l₁, l₂, -, ha, rfl, he⟩ <;> rw [he] at h
  · exact .inl h
  · rcases mem_append.mp h with h | h
    · exact .inl (mem_append_left _ h)
    · rcases mem_cons.mp h with rfl | h
      · exact .inr ⟨a, ha⟩
      · exact .inl (mem_append_right _ (mem_cons_of_mem _ h))

/-- The table after an observation of `observer`, apart from the row of `observer`. -/
structure Observed (observer subject : UniqueAddress) (r r' : Reachability) : Prop where
  version : r'.version observer = r.version observer + 1
  versions : r'.versions = r.versions.insert observer (r.version observer + 1)
  status : ∀ o, o ≠ observer → ∀ s, r'.status o s = r.status o s
  records : ∀ x ∈ r'.records, x ∈ r.records ∨ x.observer = observer ∧ x.subject = subject

lemma observed_of_find? {r r' : Reachability} {observer subject : UniqueAddress}
    (hv : r'.versions = r.versions.insert observer (r.version observer + 1))
    (hf : ∀ o, o ≠ observer → ∀ s,
      r'.records.find? (·.isAbout o s) = r.records.find? (·.isAbout o s))
    (hr : ∀ x ∈ r'.records, x ∈ r.records ∨ x.observer = observer ∧ x.subject = subject) :
    Observed observer subject r r' := by
  refine ⟨?_, hv, fun o ho s => ?_, hr⟩
  · rw [Reachability.version, hv, Finmap.lookup_insert]
    rfl
  · rw [Reachability.status, hf o ho s]
    rfl

/-- An observation changes nothing or only the row of its observer. -/
lemma change_cases (r : Reachability) (observer subject : UniqueAddress)
    (status : ReachabilityStatus) :
    r.change observer subject status = r ∨
      Observed observer subject r (r.change observer subject status) := by
  have notAbout : ∀ o, o ≠ observer → ∀ s st v,
      ReachabilityRecord.isAbout o s ⟨observer, subject, st, v⟩ = false := by
    intro o ho s st v
    simp [ReachabilityRecord.isAbout, Ne.symm ho]
  unfold change
  cases r.records.find? (·.isAbout observer subject) with
  | none =>
    dsimp only
    split_ifs with h
    · exact .inl rfl
    · refine .inr (observed_of_find? rfl (fun o ho s => ?_) fun x hx => ?_)
      · rw [find?_append, find?_singleton, notAbout o ho s]
        simp
      · rcases mem_append.mp hx with hx | hx
        · exact .inl hx
        · rw [mem_singleton.mp hx]
          exact .inr ⟨rfl, rfl⟩
  | some old =>
    dsimp only
    split_ifs with h h'
    · exact .inl rfl
    · refine .inr (observed_of_find? rfl (fun o ho s => ?_) fun x hx => ?_)
      · -- no record of another observer is dropped
        rw [find?_filter]
        congr 1
        funext x
        by_cases hx : x.observer = o <;> simp [ReachabilityRecord.isAbout, hx, ho]
      · exact .inl (mem_of_mem_filter hx)
    · refine .inr (observed_of_find? rfl (fun o ho s => ?_) fun x hx => ?_)
      · refine find?_replaceF fun x y hy => ?_
        split_ifs at hy with hx
        cases hy
        have hobs : x.observer = observer := by
          simp only [ReachabilityRecord.isAbout, Bool.and_eq_true, decide_eq_true_eq] at hx
          exact hx.1
        exact ⟨by simp [ReachabilityRecord.isAbout, hobs, Ne.symm ho], notAbout o ho s _ _⟩
      · rcases mem_of_mem_replaceF hx with hx | ⟨y, hy⟩
        · exact .inl hx
        · split_ifs at hy
          cases hy
          exact .inr ⟨rfl, rfl⟩

/-! ## What a merge keeps -/

/-- The records of the table are about allowed nodes only. -/
def Within (allowed : List UniqueAddress) (r : Reachability) : Prop :=
  (∀ x ∈ r.records, x.observer ∈ allowed ∧ x.subject ∈ allowed) ∧
    ∀ o ∈ r.versions.keys, o ∈ allowed

instance (allowed : List UniqueAddress) (r : Reachability) : Decidable (r.Within allowed) :=
  inferInstanceAs (Decidable (_ ∧ _))

variable {o : UniqueAddress} {allowed : List UniqueAddress}

lemma version_eq_zero (h : o ∉ r.versions.keys) : r.version o = 0 := by
  rw [Finmap.mem_keys] at h
  rw [version, Finmap.lookup_eq_none.mpr h]
  rfl

lemma Within.version_eq_zero (h : r.Within allowed) (ho : o ∉ allowed) : r.version o = 0 :=
  Reachability.version_eq_zero fun hk => ho (h.2 o hk)

lemma Within.mono {allowed allowed' : List UniqueAddress} (h : r.Within allowed)
    (hsub : ∀ x ∈ allowed, x ∈ allowed') : r.Within allowed' :=
  ⟨fun x hx => ⟨hsub _ (h.1 x hx).1, hsub _ (h.1 x hx).2⟩, fun o ho => hsub o (h.2 o ho)⟩

lemma Within.dedup (h : r.Within allowed) : r.Within allowed.dedup :=
  h.mono fun _ => mem_dedup.mpr

variable {r other : Reachability} {allowed : List UniqueAddress} {x : ReachabilityRecord}
  {o s : UniqueAddress}

lemma eq_new_of_isUnversionedAllReachable (h : r.isUnversionedAllReachable = true) : r = new := by
  rcases r with ⟨records, versions⟩
  simp only [isUnversionedAllReachable, Bool.and_eq_true, List.isEmpty_iff, decide_eq_true_eq] at h
  rw [h.1, h.2]
  rfl

lemma version_merge_eq (r other : Reachability) (allowed : List UniqueAddress) (o : UniqueAddress) :
    (r.merge allowed other).version o =
      if o ∈ allowed then max (r.version o) (other.version o) else 0 := by
  unfold merge
  split_ifs with h hmem hmem
  · rw [Bool.and_eq_true] at h
    rw [eq_new_of_isUnversionedAllReachable h.1, eq_new_of_isUnversionedAllReachable h.2, max_self]
  · rfl
  · rw [version, lookup_tabulate, if_pos (mem_toFinset.mpr hmem)]
    split_ifs with hlt
    · exact (max_eq_right hlt.le).symm
    · exact (max_eq_left (not_lt.mp hlt)).symm
  · rw [version, lookup_tabulate, if_neg (by simpa using hmem)]
    rfl

lemma version_merge (hr : r.Within allowed) (ho : other.Within allowed) (o : UniqueAddress) :
    (r.merge allowed other).version o = max (r.version o) (other.version o) := by
  rw [version_merge_eq]
  split_ifs with hmem
  · rfl
  · rw [hr.version_eq_zero hmem, ho.version_eq_zero hmem, max_self]

lemma find?_flatMap_rows {f : UniqueAddress → List ReachabilityRecord}
    (hf : ∀ o, ∀ x ∈ f o, x.observer = o) (hnd : allowed.Nodup) (o s : UniqueAddress) :
    (allowed.flatMap f).find? (·.isAbout o s) =
      if o ∈ allowed then (f o).find? (·.isAbout o s) else none := by
  have other : ∀ a, a ≠ o → (f a).find? (·.isAbout o s) = none := by
    intro a ha
    rw [find?_eq_none]
    intro x hx
    simp [ReachabilityRecord.isAbout, hf a x hx, ha]
  induction allowed with
  | nil => rfl
  | cons a rest ih =>
    rw [nodup_cons] at hnd
    rw [flatMap_cons, find?_append, ih hnd.2]
    by_cases ha : a = o
    · subst ha
      rw [if_neg hnd.1, or_none, if_pos (by simp)]
    · rw [other a ha, none_or]
      simp [Ne.symm ha]

lemma mem_newerRows (h : x ∈ r.newerRows other o) :
    x.observer = o ∧ (x ∈ r.records ∨ x ∈ other.records) := by
  unfold newerRows observerRows at h
  split_ifs at h
  · exact ⟨of_decide_eq_true (mem_filter.mp h).2, .inl (mem_filter.mp h).1⟩
  · exact ⟨of_decide_eq_true (mem_filter.mp h).2, .inr (mem_filter.mp h).1⟩

lemma find?_observerRows (r : Reachability) (o s : UniqueAddress) :
    (r.observerRows o).find? (·.isAbout o s) = r.records.find? (·.isAbout o s) := by
  rw [observerRows, find?_filter]
  congr 1
  funext x
  by_cases hx : x.observer = o <;> simp [ReachabilityRecord.isAbout, hx]

/-- The merge keeps the newer row of every allowed observer, as far as it is about allowed subjects. -/
lemma status_merge_eq (r other : Reachability) (hnd : allowed.Nodup) (o s : UniqueAddress) :
    (r.merge allowed other).status o s =
      if o ∈ allowed ∧ s ∈ allowed then
        if other.version o ≤ r.version o then r.status o s else other.status o s
      else .reachable := by
  unfold merge
  by_cases hboth : (r.isUnversionedAllReachable && other.isUnversionedAllReachable) = true
  · rw [if_pos hboth]
    rw [Bool.and_eq_true] at hboth
    rw [eq_new_of_isUnversionedAllReachable hboth.1, eq_new_of_isUnversionedAllReachable hboth.2]
    split_ifs <;> rfl
  rw [if_neg hboth, status]
  rw [find?_flatMap_rows (fun o x hx => (mem_newerRows (mem_filter.mp hx).1).1) hnd, find?_filter]
  by_cases hmem : o ∈ allowed ∧ s ∈ allowed
  · have hp : (fun x : ReachabilityRecord =>
        decide (decide (x.subject ∈ allowed) = true ∧ x.isAbout o s = true)) = (·.isAbout o s) := by
      funext x
      by_cases hx : x.subject = s <;> simp [ReachabilityRecord.isAbout, hx, hmem.2]
    rw [if_pos hmem, if_pos hmem.1, hp, newerRows]
    split_ifs <;> rw [find?_observerRows] <;> rfl
  · rw [if_neg hmem]
    split_ifs with ho
    · rw [find?_eq_none.mpr]
      · rfl
      · intro x _ hx
        simp only [ReachabilityRecord.isAbout, Bool.and_eq_true, decide_eq_true_eq] at hx
        exact hmem ⟨ho, hx.2.2 ▸ hx.1⟩
    · rfl

lemma Within.status_eq_reachable (h : r.Within allowed)
    (hmem : ¬ (o ∈ allowed ∧ s ∈ allowed)) : r.status o s = .reachable := by
  rw [status, find?_eq_none.mpr]
  · rfl
  · intro x hx hab
    simp only [ReachabilityRecord.isAbout, Bool.and_eq_true, decide_eq_true_eq] at hab
    exact hmem (hab.1 ▸ hab.2 ▸ h.1 x hx)

lemma status_merge (hr : r.Within allowed) (ho : other.Within allowed) (hnd : allowed.Nodup)
    (o s : UniqueAddress) :
    (r.merge allowed other).status o s =
      if other.version o ≤ r.version o then r.status o s else other.status o s := by
  rw [status_merge_eq r other hnd]
  split_ifs with hmem
  · rfl
  · rfl
  · exact (hr.status_eq_reachable hmem).symm
  · exact (ho.status_eq_reachable hmem).symm

lemma within_merge (r other : Reachability) (allowed : List UniqueAddress) :
    (r.merge allowed other).Within allowed := by
  unfold merge
  split_ifs
  · exact ⟨by simp [new], by simp [new]⟩
  · refine ⟨fun x hx => ?_, fun o ho => ?_⟩
    · obtain ⟨o, ho, hx⟩ := mem_flatMap.mp hx
      obtain ⟨hx, hs⟩ := mem_filter.mp hx
      exact ⟨(mem_newerRows hx).1 ▸ ho, of_decide_eq_true hs⟩
    · rw [Finmap.mem_keys, mem_iff_isSome, lookup_tabulate] at ho
      by_contra hmem
      rw [if_neg fun h => hmem (mem_toFinset.mp h)] at ho
      cases ho

/-! ## The tables of runs -/

/-- The tables that operations build from the empty one. -/
inductive Built : Reachability → Prop
  | new : Built new
  | change {r : Reachability} (observer subject : UniqueAddress) (status : ReachabilityStatus) :
    Built r → Built (r.change observer subject status)
  | merge {r other : Reachability} {allowed : List UniqueAddress} :
    Built r → Built other → allowed.Nodup → Built (r.merge allowed other)
  | remove {r : Reachability} (removed : Finset UniqueAddress) : Built r → Built (r.remove removed)

/-- One record for a pair of observer and subject, none newer than the row of its observer. -/
structure Represents (r : Reachability) : Prop where
  unique : (r.records.map fun x => (x.observer, x.subject)).Nodup
  bounded : ∀ x ∈ r.records, x.version ≤ r.version x.observer

lemma version_insert_self (records : List ReachabilityRecord) (o : UniqueAddress) (v : ℕ) :
    version ⟨records, r.versions.insert o v⟩ o = v := by
  rw [version, Finmap.lookup_insert]
  rfl

lemma le_version_change (r : Reachability) (observer subject o : UniqueAddress)
    (status : ReachabilityStatus) : r.version o ≤ (r.change observer subject status).version o := by
  rcases r.change_cases observer subject status with h | h
  · rw [h]
  · by_cases ho : o = observer
    · rw [ho, h.version]
      omega
    · rw [version, version, h.versions, lookup_insert, if_neg ho]

lemma version_remove (r : Reachability) {removed : Finset UniqueAddress}
    (h : o ∉ removed) : (r.remove removed).version o = r.version o := by
  rw [version, remove, lookup_retain, if_pos (decide_eq_true h)]
  rfl

lemma map_replaceF {α β : Type*} {f : α → Option α} {g : α → β} {l : List α}
    (h : ∀ x y, f x = some y → g y = g x) : (l.replaceF f).map g = l.map g := by
  rcases exists_or_eq_self_of_replaceF f l with he | ⟨a, b, l₁, l₂, -, ha, rfl, he⟩ <;> rw [he]
  rw [map_append, map_append, map_cons, map_cons, h a b ha]

lemma mem_replaceF_of_none {f : α → Option α} {l : List α} {x : α} (h : x ∈ l) (hx : f x = none) :
    x ∈ l.replaceF f := by
  rcases exists_or_eq_self_of_replaceF f l with he | ⟨a, b, l₁, l₂, -, ha, rfl, he⟩ <;> rw [he]
  · exact h
  · rcases mem_append.mp h with h | h
    · exact mem_append_left _ h
    · rcases mem_cons.mp h with rfl | h
      · cases hx.symm.trans ha
      · exact mem_append_right _ (mem_cons_of_mem _ h)

lemma isAbout_iff : x.isAbout o s = true ↔ (x.observer, x.subject) = (o, s) := by
  simp [ReachabilityRecord.isAbout]

lemma Represents.find?_eq (h : Represents r) (hx : x ∈ r.records) (hab : x.isAbout o s = true) :
    r.records.find? (·.isAbout o s) = some x := by
  cases hf : r.records.find? (·.isAbout o s) with
  | none => exact absurd hab (by simpa using find?_eq_none.mp hf x hx)
  | some y =>
    have hy : y.isAbout o s = true := find?_some hf
    rw [inj_on_of_nodup_map h.unique (mem_of_find?_eq_some hf) hx
      ((isAbout_iff.mp hy).trans (isAbout_iff.mp hab).symm)]

lemma Represents.change (h : Represents r) (observer subject : UniqueAddress)
    (status : ReachabilityStatus) : Represents (r.change observer subject status) := by
  have older : ∀ x ∈ r.records,
      x.version ≤ (r.change observer subject status).version x.observer :=
    fun x hx => (h.bounded x hx).trans (r.le_version_change observer subject x.observer status)
  unfold Reachability.change at older ⊢
  cases hf : r.records.find? (·.isAbout observer subject) with
  | none =>
    rw [hf] at older
    dsimp only at older ⊢
    split_ifs at older ⊢
    · exact h
    · refine ⟨?_, fun x hx => ?_⟩
      · rw [map_append]
        refine nodup_append.mpr ⟨h.unique, nodup_singleton _, fun k hk k' hk' => ?_⟩
        obtain ⟨x, hx, rfl⟩ := mem_map.mp hk
        rw [mem_singleton.mp hk']
        exact fun he => find?_eq_none.mp hf x hx (isAbout_iff.mpr he)
      · rcases mem_append.mp hx with hx | hx
        · exact older x hx
        · rw [mem_singleton.mp hx, version_insert_self]
  | some old =>
    rw [hf] at older
    dsimp only at older ⊢
    split_ifs at older ⊢
    · exact h
    · exact ⟨h.unique.sublist (filter_sublist.map _),
        fun x hx => older x (mem_of_mem_filter hx)⟩
    · refine ⟨?_, fun x hx => ?_⟩
      · rw [map_replaceF]
        · exact h.unique
        · intro x y hy
          split_ifs at hy with hab
          rw [← some.inj hy, isAbout_iff.mp hab]
      · rcases mem_of_mem_replaceF hx with hx | ⟨y, hy⟩
        · exact older x hx
        · split_ifs at hy
          rw [← some.inj hy, version_insert_self]

lemma Represents.merge (h : Represents r) (h' : Represents other) (hnd : allowed.Nodup) :
    Represents (r.merge allowed other) := by
  have bounded : ∀ x ∈ (r.merge allowed other).records,
      x.version ≤ (r.merge allowed other).version x.observer := by
    intro x hx
    rw [version_merge_eq, if_pos ((within_merge r other allowed).1 x hx).1]
    unfold Reachability.merge at hx
    split_ifs at hx
    · cases hx
    · obtain ⟨o, -, hx⟩ := mem_flatMap.mp hx
      rcases (mem_newerRows (mem_filter.mp hx).1).2 with hx | hx
      · exact (h.bounded x hx).trans (le_max_left _ _)
      · exact (h'.bounded x hx).trans (le_max_right _ _)
  refine ⟨?_, bounded⟩
  unfold Reachability.merge
  split_ifs
  · exact nodup_nil
  rw [map_flatMap, nodup_flatMap]
  constructor
  · intro o _
    refine List.Nodup.sublist (filter_sublist.map _) ?_
    unfold newerRows
    split_ifs
    · exact h.unique.sublist (filter_sublist.map _)
    · exact h'.unique.sublist (filter_sublist.map _)
  · refine hnd.imp fun {a b} hab k hk hk' => hab ?_
    obtain ⟨x, hx, rfl⟩ := mem_map.mp hk
    obtain ⟨y, hy, he⟩ := mem_map.mp hk'
    rw [← (mem_newerRows (mem_filter.mp hx).1).1, ← (mem_newerRows (mem_filter.mp hy).1).1]
    exact (congrArg Prod.fst he).symm

lemma Represents.remove (h : Represents r) (removed : Finset UniqueAddress) :
    Represents (r.remove removed) := by
  refine ⟨h.unique.sublist (filter_sublist.map _), fun x hx => ?_⟩
  obtain ⟨hx, hn⟩ := mem_filter.mp hx
  rw [version_remove r (of_decide_eq_true hn).1]
  exact h.bounded x hx

lemma Built.represents (h : Built r) : Represents r := by
  induction h with
  | new => exact ⟨nodup_nil, fun x hx => absurd hx not_mem_nil⟩
  | change o s st _ ih => exact ih.change o s st
  | merge _ _ hnd ih ih' => exact ih.merge ih' hnd
  | remove removed _ ih => exact ih.remove removed

/-- No observation touches a record that says that its subject has terminated. -/
lemma Represents.mem_change (h : Represents r) (hx : x ∈ r.records)
    (ht : x.status = .terminated) (observer subject : UniqueAddress) (status : ReachabilityStatus) :
    x ∈ (r.change observer subject status).records := by
  unfold Reachability.change
  cases hf : r.records.find? (·.isAbout observer subject) with
  | none =>
    dsimp only
    split_ifs
    · exact hx
    · exact mem_append_left _ hx
  | some old =>
    dsimp only
    split_ifs with hold hrow
    · exact hx
    all_goals
      have hab : x.isAbout observer subject = false := by
        by_contra hab
        rw [h.find?_eq hx (by simpa using hab)] at hf
        exact hold (.inl (some.inj hf ▸ ht))
    · refine mem_filter.mpr ⟨hx, decide_eq_true fun ho => ?_⟩
      -- a terminated record keeps its row from being dropped
      have := all_eq_true.mp hrow.2 x (mem_filter.mpr ⟨hx, decide_eq_true ho⟩)
      simp [ReachabilityRecord.isAbout, ho, ht] at this hab
      exact hab this
    · exact mem_replaceF_of_none hx (by rw [hab]; rfl)

/-- **The representation of reachability tables.** -/
theorem built_representation (h : Built r) :
    (r.records.map fun x => (x.observer, x.subject)).Nodup ∧
    (∀ x ∈ r.records, x.version ≤ r.version x.observer) ∧
    (∀ o s st n, r.version n ≤ (r.change o s st).version n) ∧
    (∀ other allowed, ∀ n ∈ allowed, max (r.version n) (other.version n) ≤
      (r.merge allowed other).version n) ∧
    (∀ removed, ∀ n ∉ removed, r.version n ≤ (r.remove removed).version n) ∧
    ∀ x ∈ r.records, x.status = .terminated →
      ∀ o s st, x ∈ (r.change o s st).records := by
  refine ⟨h.represents.unique, h.represents.bounded, fun o s st n => r.le_version_change o s n st,
    fun other allowed n hn => ?_, fun removed n hn => ?_,
    fun x hx ht o s st => h.represents.mem_change hx ht o s st⟩
  · rw [version_merge_eq, if_pos hn]
  · rw [version_remove r hn]

theorem built_representation_final :
    let a := UniqueAddress.localTo "a" 1
    let b := UniqueAddress.localTo "b" 2
    let r := new.terminated a b
    Built r ∧ ⟨a, b, .terminated, 1⟩ ∈ (r.reachable a b).records := by
  intro a b r
  have hr : Built r := Built.new.change a b .terminated
  exact ⟨hr, (built_representation hr).2.2.2.2.2 ⟨a, b, .terminated, 1⟩ (by decide) rfl a b _⟩

end Reachability

end Kairo.Cluster
