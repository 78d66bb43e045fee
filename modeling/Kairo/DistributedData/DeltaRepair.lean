import Kairo.DistributedData.DeltaTiling
import Mathlib.Order.Interval.Finset.Nat

/-!
# Full states and the delta stream

A sender and one receiver.  The sender updates its values, sends ranges of deltas and snapshots of its
full state; ranges and snapshots arrive late, out of order, repeatedly or never.  Merging a full state
leaves the version up to which the receiver has applied deltas where it was, so the ranges after a
lost one are taken again only once the lost one has arrived after all.
-/

namespace Kairo.DistributedData

open Kairo.Lib DeltaReplicatedData RemovedNodePruning DeltaReceiveTracker Option Finset

/-- A full state of a key, with the sender's version that it covers. -/
structure SentState (K D R : Type*) where
  key : K
  envelope : DataEnvelope D R
  version : ℕ

structure DeltaStream (K R D Δ : Type*) where
  /-- The log of the sender and the ranges sent so far. -/
  sender : DeltaRun K R Δ
  senderState : ReplicatorState K (DataEnvelope D R)
  fullStates : List (SentState K D R)
  tracker : DeltaReceiveTracker R K
  state : ReplicatorState K (DataEnvelope D R)
  /-- The versions covered by the full states that were merged. -/
  merged : K → List ℕ
  /-- The versions in the ranges that were applied. -/
  applied : K → Finset ℕ

inductive DeltaStreamLabel (K R D : Type*)
  | update (key : K) (initial : D) (modify : D → Except CrdtError D)
  | collect
  | cleanup
  | sendFull (key : K)
  | receiveRange (key : K) (range : ℕ) (pruning : PruningTable R) (now : ℕ)
  | receiveFull (full : ℕ) (now : ℕ)

namespace DeltaStream

variable {K R D Δ : Type*} [LinearOrder K] [LinearOrder R] [DecidableEq D] [DeltaReplicatedData D Δ]
  [RemovedNodePruning D R]

def received (s : DeltaStream K R D Δ) (sender receiver : R) (key : K)
    (e : DeltaPropagationEntry Δ) (pruning : PruningTable R) (now : ℕ) : DeltaStream K R D Δ :=
  let result := s.tracker.applyDeltaPruned s.state sender key e.fromVersion e.toVersion e.delta pruning
    now (some receiver)
  { s with
    tracker := result.1
    state := result.2.1
    applied := fun key' => if key' = key ∧ result.2.2.isApplied then
      s.applied key ∪ Finset.Icc e.fromVersion e.toVersion else s.applied key' }

def step (sender receiver : R) (s : DeltaStream K R D Δ) :
    DeltaStreamLabel K R D → Option (DeltaStream K R D Δ)
  | .update key initial modify =>
    match s.senderState.updateEnvelope key initial modify with
    | .ok (state, delta) =>
      (s.sender.step (mergeDeltas D) (.record key delta)).map fun run =>
        { s with sender := run, senderState := state }
    | .error _ => none
  | .collect =>
    (s.sender.step (mergeDeltas D) .collect).map fun run => { s with sender := run }
  | .cleanup =>
    (s.sender.step (mergeDeltas D) .cleanup).map fun run => { s with sender := run }
  | .sendFull key =>
    (s.senderState.entries.lookup key).map fun envelope => { s with
      fullStates := s.fullStates ++ [⟨key, envelope, s.sender.log.currentVersion key⟩] }
  | .receiveRange key i pruning now =>
    ((s.sender.sent receiver key)[i]?).map fun e => s.received sender receiver key e pruning now
  | .receiveFull i now =>
    (s.fullStates[i]?).map fun full => { s with
      state := (s.state.writeFullPruned full.key (full.envelope.addPruningSeen receiver) now).1
      merged := fun key => if key = full.key then full.version :: s.merged key else s.merged key }

/-- A sender with a new log and a receiver that has applied nothing. -/
def machine (nodes : Finset R) (divisor maxDeltaVersions : ℕ) (sender receiver : R) :
    Machine (DeltaStream K R D Δ) (DeltaStreamLabel K R D) where
  init s := s.sender = .start nodes divisor maxDeltaVersions ∧ s.senderState = .new ∧
    s.fullStates = [] ∧ s.tracker = .new ∧ (∀ key, s.merged key = []) ∧ ∀ key, s.applied key = ∅
  step := step sender receiver

/-! ## The applied versions -/

/-- A new range is applied where it reaches the tracked version, and changes nothing elsewhere. -/
lemma applyDeltaPruned_cases (t : DeltaReceiveTracker R K)
    (state : ReplicatorState K (DataEnvelope D R)) (source : R) (key : K) (fromVersion toVersion : ℕ)
    (d : Δ) (pruning : PruningTable R) (now : ℕ) (seenBy : Option R) :
    let result := t.applyDeltaPruned state source key fromVersion toVersion d pruning now seenBy
    (result.2.2.isApplied = true ∧ 0 < fromVersion ∧ fromVersion ≤ toVersion ∧
        t.currentVersion source key < toVersion ∧ fromVersion ≤ t.currentVersion source key + 1 ∧
        result.1 = ⟨t.versions.insert (source, key) toVersion⟩) ∨
      result.2.2.isApplied = false ∧ result.1 = t := by
  intro result
  simp only [result]
  unfold applyDeltaPruned
  dsimp only
  split_ifs with hinvalid hhandled hgap
  · exact .inr ⟨rfl, rfl⟩
  · exact .inr ⟨rfl, rfl⟩
  · exact .inr ⟨rfl, rfl⟩
  · exact .inl ⟨rfl, by omega, by omega, by omega, by omega, rfl⟩

/-- The applied versions are those up to the tracked one. -/
def Inv (sender : R) (s : DeltaStream K R D Δ) : Prop :=
  ∀ key, s.applied key = Finset.Icc 1 (s.tracker.currentVersion sender key)

variable {sender receiver : R} {s : DeltaStream K R D Δ}

lemma Inv.received (hI : Inv sender s) (key : K) (e : DeltaPropagationEntry Δ)
    (pruning : PruningTable R) (now : ℕ) :
    Inv sender (s.received sender receiver key e pruning now) := by
  intro key'
  have hkey' := hI key'
  unfold DeltaStream.received
  dsimp only
  rcases applyDeltaPruned_cases s.tracker s.state sender key e.fromVersion e.toVersion e.delta pruning
    now (some receiver) with ⟨happlied, hpos, hle, hnew, hnext, htracker⟩ | ⟨hnot, htracker⟩
  · rw [htracker, happlied, currentVersion_insert]
    by_cases hk : key' = key
    · subst hk
      rw [if_pos ⟨rfl, rfl⟩, if_pos ⟨rfl, rfl⟩, hkey']
      ext u
      simp only [mem_union, mem_Icc]
      omega
    · rw [if_neg (by simp [hk]), if_neg (by simp [hk]), hkey']
  · rw [htracker, hnot]
    simpa using hkey'

lemma Inv.step (hI : Inv sender s) {i : DeltaStreamLabel K R D} {t : DeltaStream K R D Δ}
    (hstep : s.step sender receiver i = some t) : Inv sender t := by
  cases i with
  | update key initial modify =>
    rw [DeltaStream.step] at hstep
    split at hstep
    · obtain ⟨run, -, rfl⟩ := map_eq_some_iff.mp hstep
      exact hI
    · cases hstep
  | collect | cleanup =>
    rw [DeltaStream.step] at hstep
    obtain ⟨run, -, rfl⟩ := map_eq_some_iff.mp hstep
    exact hI
  | sendFull key =>
    obtain ⟨envelope, -, rfl⟩ := map_eq_some_iff.mp hstep
    exact hI
  | receiveRange key i pruning now =>
    obtain ⟨e, -, rfl⟩ := map_eq_some_iff.mp hstep
    exact hI.received key e pruning now
  | receiveFull i now =>
    -- the full state goes to the stored values only
    obtain ⟨full, -, rfl⟩ := map_eq_some_iff.mp hstep
    exact hI

lemma Inv.of_reach {ok : DeltaStream K R D Δ → DeltaStreamLabel K R D → Prop} {nodes : Finset R}
    {divisor maxDeltaVersions : ℕ}
    (h : (machine nodes divisor maxDeltaVersions sender receiver).Reach ok s) : Inv sender s := by
  refine h.invariant (fun s h key => ?_) fun _ _ _ hI _ hstep => hI.step hstep
  obtain ⟨-, -, -, htracker, -, happlied⟩ := h
  rw [happlied, htracker]
  rfl

end DeltaStream

/-! ## Ranges after a full state -/

namespace DeltaStream

variable {K R D Δ : Type*} [LinearOrder K] [LinearOrder R] [DecidableEq D] [DeltaReplicatedData D Δ]
  [RemovedNodePruning D R]

/-- The stream goes on after version `v`: of new consecutive ranges from the next version on the first
one is applied, and none is missing. -/
def Resumes (sender : R) (s : DeltaStream K R D Δ) (key : K) (v : ℕ) : Prop :=
  ∀ (m : DeltaMessage R Δ) (ms : List (DeltaMessage R Δ)) (w : ℕ),
    DeltaRun.Tiles v ((m :: ms).map (·.entry)) w →
    s.tracker.currentVersion sender key < m.entry.toVersion →
    ∀ statuses, receiveRanges sender key s.tracker s.state (m :: ms) = statuses →
      statuses.head?.any (·.isApplied) = true ∧ ∀ status ∈ statuses, status.isMissing = false

lemma Resumes.le_currentVersion {sender : R} {s : DeltaStream K R D Δ} {key : K} {v : ℕ}
    (h : s.Resumes sender key v) (d : Δ) : v ≤ s.tracker.currentVersion sender key := by
  by_contra hlt
  have hgap := s.tracker.applyDeltaPruned_of_gap s.state sender key d .new 0 none
    (le_refl (v + 1)) (by omega)
  have hnew : s.tracker.currentVersion sender key < v + 1 := by omega
  have hhead := (h ⟨⟨d, v + 1, v + 1⟩, .new, 0, none⟩ [] (v + 1) ⟨rfl, le_rfl, rfl⟩ hnew _ rfl).1
  rw [receiveRanges, hgap] at hhead
  cases hhead

/-- **After a full state covering version `v` was merged, the delta stream goes on from the next version
exactly when every version up to `v` has been applied in a range of deltas.**  The merge itself plays no
part in the proof: it leaves the tracker as it was. -/
theorem resumes_iff_applied [Nonempty Δ] (nodes : Finset R) (divisor maxDeltaVersions : ℕ)
    (sender receiver : R) (s : DeltaStream K R D Δ)
    (hs : (machine nodes divisor maxDeltaVersions sender receiver).Reachable s) (key : K) (v : ℕ)
    (_hv : v ∈ s.merged key) :
    s.Resumes sender key v ↔ ∀ u, 0 < u → u ≤ v → u ∈ s.applied key := by
  have happlied : (∀ u, 0 < u → u ≤ v → u ∈ s.applied key) ↔
      v ≤ s.tracker.currentVersion sender key := by
    rw [Inv.of_reach hs key]
    constructor
    · intro h
      rcases Nat.eq_zero_or_pos v with rfl | hpos
      · exact Nat.zero_le _
      · exact (mem_Icc.mp (h v hpos le_rfl)).2
    · exact fun h u hpos hle => mem_Icc.mpr ⟨hpos, hle.trans h⟩
  rw [happlied]
  constructor
  · intro h
    obtain ⟨d⟩ := ‹Nonempty Δ›
    exact h.le_currentVersion d
  · rintro hle m ms w htiles hnew statuses rfl
    refine ⟨?_, fun status hs => (receiveRanges_tiles htiles hle status hs).1⟩
    obtain ⟨hfrom, hto, -⟩ := htiles
    obtain ⟨changed, hstatus, -⟩ := s.tracker.applyDeltaPruned_of_next s.state sender key m.entry.delta
      m.pruning m.now m.seenBy (by omega) hto hnew (by omega)
    rw [receiveRanges, List.head?_cons, hstatus]
    rfl

end DeltaStream

/-! ## A lost range -/

namespace LostRange

abbrev Data := GCounter ℕ

def streamMachine : Machine (DeltaStream Unit ℕ Data Data) (DeltaStreamLabel Unit ℕ Data) :=
  DeltaStream.machine {1} 5 100 0 1

def start : DeltaStream Unit ℕ Data Data :=
  ⟨.start {1} 5 100, .new, [], .new, .new, fun _ => [], fun _ => ∅⟩

lemma init_start : streamMachine.init start := ⟨rfl, rfl, rfl, rfl, fun _ => rfl, fun _ => rfl⟩

/-- Replica 0 counts one more. -/
def count : DeltaStreamLabel Unit ℕ Data := .update () .new (·.increment 0 1)

def secondReport (s : DeltaStream Unit ℕ Data Data) : List DeltaReceiveStatus :=
  receiveRanges 0 () s.tracker s.state (((s.sender.sent 1 ()).drop 1).map PayloadFree.bare)

/-- The first range is lost and replica 1 merges the full state that covers it; the second range is
reported as missing. -/
theorem missing_after_full_state : ∃ s, streamMachine.Reachable s ∧ 1 ∈ s.merged () ∧
    secondReport s = [.missing 0 1 2 2] ∧ ¬ s.Resumes 0 () 1 := by
  obtain ⟨s, hs, hmerged, hreport, htracker⟩ := Machine.Reach.exists_of_exec (c := fun _ _ => True)
    (P := fun s => 1 ∈ s.merged () ∧ secondReport s = [.missing 0 1 2 2] ∧
      s.tracker.currentVersion 0 () = 0)
    [count, .collect, .sendFull (), .receiveFull 0 0, count, .collect] init_start (by decide +kernel)
  refine ⟨s, hs, hmerged, hreport, ?_⟩
  intro hresumes
  exact absurd ((hresumes.le_currentVersion .new).trans htracker.le) (by decide)

/-- The first range comes late, after the full state. -/
theorem resumes_after_late_range : ∃ s, streamMachine.Reachable s ∧ 1 ∈ s.merged () ∧
    1 ∈ s.applied () ∧ s.Resumes 0 () 1 := by
  obtain ⟨s, hs, hmerged, happlied⟩ := Machine.Reach.exists_of_exec (c := fun _ _ => True)
    (P := fun s => 1 ∈ s.merged () ∧ 1 ∈ s.applied ())
    [count, .collect, .sendFull (), .receiveFull 0 0, .receiveRange () 0 .new 0] init_start
    (by decide +kernel)
  have hnonempty : Nonempty Data := ⟨.new⟩
  refine ⟨s, hs, hmerged, happlied,
    (DeltaStream.resumes_iff_applied {1} 5 100 0 1 s hs () 1 hmerged).mpr ?_⟩
  intro u hpos hle
  obtain rfl : u = 1 := by omega
  exact happlied

end LostRange

end Kairo.DistributedData
