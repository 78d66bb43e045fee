import Kairo.Cluster.Events
import Mathlib.Data.List.Sort

/-!
# The oldest tracker

The role-scoped view of the cluster that tells a singleton manager who is oldest.  It starts from a
member snapshot, which keeps leaving and downed members, and then follows the member events, of which
only `up` adds a member.
-/

namespace Kairo.Singleton

open Kairo.Cluster List

/-- Which members may host the singleton. -/
structure SingletonScope where
  role : Option String
  deriving DecidableEq, Repr

def SingletonScope.all : SingletonScope := ⟨none⟩

def SingletonScope.includes (s : SingletonScope) (m : Member) : Bool := s.role.all m.hasRole

structure SingletonOldestObservation where
  olderOrSelf : List UniqueAddress
  safeToBeOldest : Bool
  deriving DecidableEq, Repr

def SingletonOldestObservation.oldest (o : SingletonOldestObservation) : Option UniqueAddress :=
  o.olderOrSelf.head?

inductive SingletonOldestChange
  | oldestChanged (oldest : Option UniqueAddress)
  | selfRemoved
  | selfDowned
  deriving DecidableEq, Repr

structure SingletonOldestTracker where
  selfNode : UniqueAddress
  scope : SingletonScope
  membersByAge : List Member
  deriving DecidableEq, Repr

namespace SingletonOldestTracker

def new (self : UniqueAddress) (scope : SingletonScope) : SingletonOldestTracker := ⟨self, scope, []⟩

def currentOldest (t : SingletonOldestTracker) : Option UniqueAddress :=
  t.membersByAge.head?.map (·.uniqueAddress)

def removeMember (t : SingletonOldestTracker) (node : UniqueAddress) : SingletonOldestTracker :=
  { t with membersByAge := t.membersByAge.filter (·.uniqueAddress ≠ node) }

/-- Replaces the entry of a member and restores the age order. -/
def addOrUpdateMember (t : SingletonOldestTracker) (m : Member) : SingletonOldestTracker :=
  { t with
    membersByAge := ((t.removeMember m.uniqueAddress).membersByAge ++ [m]).insertionSort
      fun a b => a.ageKey ≤ b.ageKey }

/-- The member has an age and is in scope. -/
def admits (t : SingletonOldestTracker) (m : Member) : Bool :=
  m.upNumber.isSome && t.scope.includes m

/-- The event brings the tracker's own node up. -/
def readmits (t : SingletonOldestTracker) : MemberEvent → Bool
  | .up m => decide (m.uniqueAddress = t.selfNode) && t.admits m
  | _ => false

/-- Both the initial and the active members are added under this check. -/
def addOrUpdateAdmitted (t : SingletonOldestTracker) (m : Member) : SingletonOldestTracker :=
  if t.admits m then t.addOrUpdateMember m else t

def initialObservation (t : SingletonOldestTracker) : SingletonOldestObservation :=
  let selfUpNumber :=
    ((t.membersByAge.find? (·.uniqueAddress = t.selfNode)).bind (·.upNumber)).getD u64Max
  let older := t.membersByAge.filter fun m => m.upNumber.getD u64Max ≤ selfUpNumber
  { olderOrSelf := older.map (·.uniqueAddress)
    safeToBeOldest := !older.any fun m =>
      m.status = .leaving ∨ m.status = .exiting ∨ m.status = .down }

def fromMembers (self : UniqueAddress) (scope : SingletonScope) (ms : List Member) :
    SingletonOldestTracker × SingletonOldestObservation :=
  let t := ms.foldl addOrUpdateAdmitted (new self scope)
  (t, t.initialObservation)

/-- The membership part of an event. -/
def track (t : SingletonOldestTracker) : MemberEvent → SingletonOldestTracker
  | .up m => t.addOrUpdateAdmitted m
  | .left m | .exited m | .removed m _ => t.removeMember m.uniqueAddress
  | .joined _ | .weaklyUp _ | .downed _ => t

def applyMemberEvent (t : SingletonOldestTracker) (e : MemberEvent) :
    SingletonOldestTracker × Option SingletonOldestChange :=
  let t' := t.track e
  let changed :=
    if t.currentOldest ≠ t'.currentOldest then some (.oldestChanged t'.currentOldest) else none
  match e with
  | .downed m => if m.uniqueAddress = t.selfNode then (t', some .selfDowned) else (t', changed)
  | .removed m _ => if m.uniqueAddress = t.selfNode then (t', some .selfRemoved) else (t', changed)
  | _ => (t', changed)

/-! ## What the tracker holds -/

@[simp] lemma addOrUpdateAdmitted_selfNode (t : SingletonOldestTracker) (m : Member) :
    (t.addOrUpdateAdmitted m).selfNode = t.selfNode := by
  unfold addOrUpdateAdmitted; split <;> rfl

@[simp] lemma addOrUpdateAdmitted_scope (t : SingletonOldestTracker) (m : Member) :
    (t.addOrUpdateAdmitted m).scope = t.scope := by
  unfold addOrUpdateAdmitted; split <;> rfl

variable {t : SingletonOldestTracker} {n : UniqueAddress} {e : MemberEvent}

lemma mem_addOrUpdateAdmitted {m x : Member} : x ∈ (t.addOrUpdateAdmitted m).membersByAge ↔
      (x ∈ t.membersByAge ∧ (t.admits m → x.uniqueAddress ≠ m.uniqueAddress)) ∨
        t.admits m ∧ x = m := by
  unfold addOrUpdateAdmitted
  cases h : t.admits m <;> simp [addOrUpdateMember, removeMember]

lemma addOrUpdateAdmitted_sorted {m : Member}
    (h : t.membersByAge.Pairwise fun a b => a.ageKey ≤ b.ageKey) :
    (t.addOrUpdateAdmitted m).membersByAge.Pairwise fun a b => a.ageKey ≤ b.ageKey := by
  unfold addOrUpdateAdmitted
  split
  · have : Std.Total fun a b : Member => a.ageKey ≤ b.ageKey := ⟨fun a b => le_total _ _⟩
    exact pairwise_insertionSort _ _
  · exact h

/-- What a tracker started from members holds: the admitted ones, in the age order, an entry for the
node of each. -/
structure Tracks (t : SingletonOldestTracker) (ms : List Member) : Prop where
  sorted : t.membersByAge.Pairwise fun a b => a.ageKey ≤ b.ageKey
  admitted : ∀ x ∈ t.membersByAge, x ∈ ms ∧ t.admits x
  complete : ∀ m ∈ ms, t.admits m → ∃ x ∈ t.membersByAge, x.uniqueAddress = m.uniqueAddress

lemma Tracks.addOrUpdateAdmitted {ms : List Member}
    (h : t.Tracks ms) (m : Member) : (t.addOrUpdateAdmitted m).Tracks (ms ++ [m]) := by
  have hadm : ∀ x, (t.addOrUpdateAdmitted m).admits x = t.admits x := by
    intro x
    simp only [admits, addOrUpdateAdmitted_scope]
  refine ⟨addOrUpdateAdmitted_sorted h.sorted, fun x hx => ?_, fun k hk ha => ?_⟩
  · rw [hadm]
    rcases mem_addOrUpdateAdmitted.mp hx with ⟨hx, -⟩ | ⟨ha, rfl⟩
    · exact ⟨by simp [(h.admitted x hx).1], (h.admitted x hx).2⟩
    · exact ⟨by simp, ha⟩
  · rw [hadm] at ha
    by_cases hm : t.admits m ∧ k.uniqueAddress = m.uniqueAddress
    · exact ⟨m, mem_addOrUpdateAdmitted.mpr (.inr ⟨hm.1, rfl⟩), hm.2.symm⟩
    · have hk : k ∈ ms := by
        rcases mem_append.mp hk with hk | hk
        · exact hk
        · obtain rfl := mem_singleton.mp hk
          exact absurd ⟨ha, rfl⟩ hm
      obtain ⟨x, hx, hxk⟩ := h.complete k hk ha
      refine ⟨x, mem_addOrUpdateAdmitted.mpr (.inl ⟨hx, fun ha' hxm => hm ⟨ha', ?_⟩⟩), hxk⟩
      rw [← hxk, hxm]

lemma tracks_foldl (self : UniqueAddress) (scope : SingletonScope) (ms : List Member) :
    (ms.foldl addOrUpdateAdmitted (new self scope)).Tracks ms ∧
      (ms.foldl addOrUpdateAdmitted (new self scope)).selfNode = self ∧
      (ms.foldl addOrUpdateAdmitted (new self scope)).scope = scope := by
  induction ms using reverseRecOn with
  | nil => exact ⟨⟨List.Pairwise.nil, by simp [new], by simp⟩, rfl, rfl⟩
  | append_singleton ms m ih =>
    simp only [foldl_append, foldl_cons, foldl_nil, addOrUpdateAdmitted_selfNode,
      addOrUpdateAdmitted_scope]
    exact ⟨ih.1.addOrUpdateAdmitted m, ih.2⟩

/-- The first node of an initial observation is tracked, with the smallest up number of all. -/
lemma exists_of_oldest (hs : t.membersByAge.Pairwise fun a b => a.ageKey ≤ b.ageKey)
    (h : t.initialObservation.oldest = some n) : ∃ m ∈ t.membersByAge, m.uniqueAddress = n ∧
      ∀ x ∈ t.membersByAge, m.upNumber.getD u64Max ≤ x.upNumber.getD u64Max := by
  simp only [SingletonOldestObservation.oldest, initialObservation, head?_map] at h
  generalize ((t.membersByAge.find? (·.uniqueAddress = t.selfNode)).bind (·.upNumber)).getD u64Max
    = selfUpNumber at h
  obtain ⟨m, hm, rfl⟩ := Option.map_eq_some_iff.mp h
  obtain ⟨rest, hrest⟩ := head?_eq_some_iff.mp hm
  have hm' := mem_filter.mp (mem_of_head? hm)
  refine ⟨m, hm'.1, rfl, fun x hx => ?_⟩
  by_contra hlt
  rw [not_le] at hlt
  have hxo : x ∈ t.membersByAge.filter fun m => m.upNumber.getD u64Max ≤ selfUpNumber :=
    mem_filter.mpr ⟨hx, decide_eq_true (hlt.le.trans (of_decide_eq_true hm'.2))⟩
  have hsorted := hs.filter fun m => decide (m.upNumber.getD u64Max ≤ selfUpNumber)
  rw [hrest] at hxo hsorted
  rcases mem_cons.mp hxo with rfl | hxr
  · exact lt_irrefl _ hlt
  · have hle : m.ageKey ≤ x.ageKey := rel_of_pairwise_cons hsorted hxr
    rcases (Prod.Lex.toLex_le_toLex.mp hle) with h' | h'
    · exact absurd h' hlt.le.not_gt
    · exact absurd h'.1 hlt.ne'

/-- A node whose own entries have the age `a` observes every tracked node at most that old. -/
lemma mem_olderOrSelf {a : ℕ} (hself : ∃ x ∈ t.membersByAge, x.uniqueAddress = t.selfNode)
    (ha : ∀ x ∈ t.membersByAge, x.uniqueAddress = t.selfNode → x.upNumber = some a) {x : Member}
    (hx : x ∈ t.membersByAge) (hle : x.upNumber.getD u64Max ≤ a) :
    x.uniqueAddress ∈ t.initialObservation.olderOrSelf := by
  have hup : ((t.membersByAge.find? (·.uniqueAddress = t.selfNode)).bind (·.upNumber)).getD u64Max
      = a := by
    cases hf : t.membersByAge.find? (·.uniqueAddress = t.selfNode) with
    | none =>
      obtain ⟨y, hy, hye⟩ := hself
      exact absurd (decide_eq_true hye) (find?_eq_none.mp hf y hy)
    | some y =>
      have hye : y.uniqueAddress = t.selfNode := by simpa using find?_some hf
      rw [Option.bind_some, ha y (mem_of_find?_eq_some hf) hye]
      rfl
  simp only [initialObservation, hup, mem_map, mem_filter, decide_eq_true_eq]
  exact ⟨x, ⟨hx, hle⟩, rfl⟩

lemma track_selfNode (t : SingletonOldestTracker) (e : MemberEvent) :
    (t.track e).selfNode = t.selfNode := by
  cases e <;> simp [track, removeMember]

lemma track_scope (t : SingletonOldestTracker) (e : MemberEvent) :
    (t.track e).scope = t.scope := by
  cases e <;> simp [track, removeMember]

lemma mem_of_mem_track {x : Member} (h : x ∈ (t.track e).membersByAge) :
    x ∈ t.membersByAge ∨ e = .up x ∧ t.admits x := by
  cases e with
  | up m =>
    rcases mem_addOrUpdateAdmitted.mp h with ⟨h, -⟩ | ⟨ha, rfl⟩
    · exact .inl h
    · exact .inr ⟨rfl, ha⟩
  | left m | exited m | removed m s => exact .inl (mem_of_mem_filter h)
  | joined m | weaklyUp m | downed m => exact .inl h

lemma applyMemberEvent_fst (t : SingletonOldestTracker) (e : MemberEvent) :
    (t.applyMemberEvent e).1 = t.track e := by
  unfold applyMemberEvent
  cases e <;> dsimp only <;> split <;> rfl

/-- A reported oldest node is the first tracked one after the event. -/
lemma currentOldest_of_applyMemberEvent {o : Option UniqueAddress}
    (h : (t.applyMemberEvent e).2 = some (.oldestChanged o)) : (t.track e).currentOldest = o := by
  have key : ∀ {c : Option SingletonOldestChange},
      c = (if t.currentOldest ≠ (t.track e).currentOldest then
        some (.oldestChanged (t.track e).currentOldest) else none) →
      c = some (.oldestChanged o) → (t.track e).currentOldest = o := by
    intro c hc ho
    rw [hc] at ho
    split at ho
    · injection ho with ho; injection ho
    · cases ho
  unfold applyMemberEvent at h
  cases e <;> dsimp only at h
  case downed m => split at h; cases h; exact key rfl h
  case removed m s => split at h; cases h; exact key rfl h
  all_goals exact key rfl h

lemma mem_of_currentOldest (h : t.currentOldest = some n) :
    ∃ m ∈ t.membersByAge, m.uniqueAddress = n := by
  obtain ⟨m, hm, rfl⟩ := Option.map_eq_some_iff.mp h
  exact ⟨m, mem_of_head? hm, rfl⟩

end SingletonOldestTracker

end Kairo.Singleton
