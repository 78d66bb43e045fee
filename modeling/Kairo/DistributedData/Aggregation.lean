import Kairo.DistributedData.Envelope

/-!
# Read and write aggregation

Consistency levels, and the two state machines that collect the replies of remote replicas.  The local
replica counts implicitly; replies of unknown replicas and repeated replies are ignored.
-/

set_option linter.unusedSectionVars false

namespace Kairo.DistributedData

open Kairo.Lib

/-! ## Consistency levels -/

inductive ReadConsistency
  | localOnly
  | fromReplicas (replicas : ℕ)
  | majority (minCap : ℕ)
  | majorityPlus (additional minCap : ℕ)
  | all
  deriving DecidableEq, Repr

inductive WriteConsistency
  | localOnly
  | toReplicas (replicas : ℕ)
  | majority (minCap : ℕ)
  | majorityPlus (additional minCap : ℕ)
  | all
  deriving DecidableEq, Repr

inductive AggregationError
  | localConsistencyUnsupported
  | notEnoughReplicas (required available : ℕ)
  deriving DecidableEq, Repr

/-- A majority, raised by the extra votes and the minimum and capped at all replicas. -/
def calculateMajority (minCap totalReplicas additional : ℕ) : ℕ :=
  min totalReplicas (max (totalReplicas / 2 + 1 + additional) minCap)

/-- The replicas to wait for besides the local one. -/
def requiredRemoteCountForWrite (consistency : WriteConsistency) (remoteCount : ℕ) :
    Except AggregationError ℕ :=
  let total := remoteCount + 1
  match consistency with
  | .localOnly => .error .localConsistencyUnsupported
  | .toReplicas replicas => .ok (replicas - 1)
  | .majority minCap => .ok (calculateMajority minCap total 0 - 1)
  | .majorityPlus additional minCap => .ok (calculateMajority minCap total additional - 1)
  | .all => .ok (total - 1)

def requiredRemoteCountForRead (consistency : ReadConsistency) (remoteCount : ℕ) :
    Except AggregationError ℕ :=
  let total := remoteCount + 1
  match consistency with
  | .localOnly => .error .localConsistencyUnsupported
  | .fromReplicas replicas => .ok (replicas - 1)
  | .majority minCap => .ok (calculateMajority minCap total 0 - 1)
  | .majorityPlus additional minCap => .ok (calculateMajority minCap total additional - 1)
  | .all => .ok (total - 1)

def ensureAvailable (required available : ℕ) : Except AggregationError Unit :=
  if required ≤ available then .ok () else .error (.notEnoughReplicas required available)

/-- A write is refused at once when its quorum cannot be met. -/
def requiredRemoteWriteAcks (consistency : WriteConsistency) (remoteCount : ℕ) :
    Except AggregationError ℕ := do
  let required ← requiredRemoteCountForWrite consistency remoteCount
  ensureAvailable required remoteCount
  return required

/-! ## Writes -/

inductive WriteAggregationOutcome
  | inProgress
  | success
  | failed (required available : ℕ)
  | timeout (required acknowledged : ℕ)
  deriving DecidableEq, Repr

structure WriteAggregatorState (K R : Type*) where
  key : K
  remoteNodes : List R
  requiredRemoteAcks : ℕ
  acked : Finset R
  nacked : Finset R

namespace WriteAggregatorState

variable {K R : Type*} [DecidableEq R]

def new (key : K) (consistency : WriteConsistency) (remoteNodes : List R) :
    Except AggregationError (WriteAggregatorState K R) :=
  (requiredRemoteWriteAcks consistency remoteNodes.length).map fun required =>
    ⟨key, remoteNodes, required, ∅, ∅⟩

variable (s : WriteAggregatorState K R)

/-- An acknowledgement supersedes an earlier refusal. -/
def recordAck (replica : R) : WriteAggregatorState K R :=
  if replica ∈ s.remoteNodes then
    { s with nacked := s.nacked.erase replica, acked := insert replica s.acked }
  else s

def recordNack (replica : R) : WriteAggregatorState K R :=
  if replica ∈ s.remoteNodes ∧ replica ∉ s.acked then
    { s with nacked := insert replica s.nacked }
  else s

def outcome : WriteAggregationOutcome :=
  if s.requiredRemoteAcks ≤ s.acked.card then .success
  else
    let available := s.remoteNodes.length - s.nacked.card
    if available < s.requiredRemoteAcks then .failed s.requiredRemoteAcks available
    else .inProgress

def timeout : WriteAggregationOutcome :=
  if s.requiredRemoteAcks ≤ s.acked.card then .success
  else .timeout s.requiredRemoteAcks s.acked.card

lemma outcome_success_iff : s.outcome = .success ↔ s.requiredRemoteAcks ≤ s.acked.card := by
  unfold outcome
  split_ifs with h
  · simp [h]
  · dsimp only
    split_ifs <;> simp [h]

/-- The deadline reports no success that was not there before. -/
lemma timeout_success_iff : s.timeout = .success ↔ s.requiredRemoteAcks ≤ s.acked.card := by
  unfold timeout
  split_ifs with h <;> simp [h]

/-! ### Sequences of replies -/

inductive Reply (R : Type*)
  | ack (replica : R)
  | nack (replica : R)
  deriving DecidableEq

def record : Reply R → WriteAggregatorState K R
  | .ack replica => s.recordAck replica
  | .nack replica => s.recordNack replica

def recordAll (replies : List (Reply R)) : WriteAggregatorState K R := replies.foldl record s

/-- The known replicas that ever acknowledged. -/
def acknowledged (replies : List (Reply R)) : Finset R :=
  s.remoteNodes.toFinset.filter fun r => .ack r ∈ replies

/-- The known replicas that refused and never acknowledged. -/
def onlyRefused (replies : List (Reply R)) : Finset R :=
  s.remoteNodes.toFinset.filter fun r => .nack r ∈ replies ∧ .ack r ∉ replies

def withReplies (acks refusals : Finset R) : WriteAggregatorState K R :=
  { s with acked := s.acked ∪ acks, nacked := s.nacked \ acks ∪ refusals \ s.acked }

@[simp] lemma mem_acknowledged {replies : List (Reply R)} {r : R} :
    r ∈ s.acknowledged replies ↔ r ∈ s.remoteNodes ∧ .ack r ∈ replies := by
  simp [acknowledged]

@[simp] lemma mem_onlyRefused {replies : List (Reply R)} {r : R} :
    r ∈ s.onlyRefused replies ↔ r ∈ s.remoteNodes ∧ .nack r ∈ replies ∧ .ack r ∉ replies := by
  simp [onlyRefused]

variable (replies : List (Reply R))

lemma record_withReplies (reply : Reply R) :
    (s.withReplies (s.acknowledged replies) (s.onlyRefused replies)).record reply =
      s.withReplies (s.acknowledged (replies ++ [reply])) (s.onlyRefused (replies ++ [reply])) := by
  cases reply with
  | ack a | nack a =>
    simp only [record, recordAck, recordNack]
    split_ifs with h
    all_goals
      refine congrArg₂ (fun x y => { s with acked := x, nacked := y }) ?_ ?_ <;> ext r <;>
        by_cases hr : r = a <;> simp [hr, withReplies] at h ⊢ <;> tauto

/-- The replies count by the two sets only. -/
lemma recordAll_eq_withReplies :
    s.recordAll replies = s.withReplies (s.acknowledged replies) (s.onlyRefused replies) := by
  induction replies using List.reverseRecOn with
  | nil => simp [recordAll, withReplies, acknowledged, onlyRefused]
  | append_singleton replies reply ih =>
    rw [← record_withReplies, ← ih]
    exact List.foldl_concat ..

lemma acknowledged_append {replies more : List (Reply R)} :
    s.acknowledged replies ⊆ s.acknowledged (replies ++ more) := by
  intro r h
  rw [mem_acknowledged] at h ⊢
  exact ⟨h.1, List.mem_append_left _ h.2⟩

/-- **Write aggregation does not depend on the order of the replies**, and a success is final. -/
theorem outcome_recordAll :
    (∀ replies replies', s.acknowledged replies = s.acknowledged replies' →
      s.onlyRefused replies = s.onlyRefused replies' →
      (s.recordAll replies).outcome = (s.recordAll replies').outcome) ∧
    ∀ replies more, (s.recordAll replies).outcome = .success →
      (s.recordAll (replies ++ more)).outcome = .success := by
  constructor
  · intro replies replies' ha hr
    rw [recordAll_eq_withReplies, recordAll_eq_withReplies, ha, hr]
  · intro replies more h
    rw [recordAll_eq_withReplies, outcome_success_iff] at h ⊢
    exact h.trans (Finset.card_le_card (Finset.union_subset_union_right s.acknowledged_append))

theorem outcome_recordAll_swapped :
    let s : WriteAggregatorState ℕ ℕ := ⟨0, [1, 2, 3], 2, ∅, ∅⟩
    (s.recordAll [.nack 1, .ack 2, .ack 1, .nack 1]).outcome =
      (s.recordAll [.ack 1, .ack 7, .ack 2]).outcome ∧
    (s.recordAll ([.ack 1, .ack 2] ++ [.nack 1, .nack 3])).outcome = .success :=
  ⟨(outcome_recordAll _).1 _ _ (by decide) (by decide), (outcome_recordAll _).2 _ _ (by decide)⟩

end WriteAggregatorState

/-! ## Reads -/

inductive ReadAggregationOutcome (D R : Type*)
  | inProgress
  | success (envelope : DataEnvelope D R)
  | notFound
  | failure (required received : ℕ)

structure ReadAggregatorState (K D R : Type*) where
  key : K
  remoteNodes : List R
  requiredRemoteReads : ℕ
  received : ℕ
  receivedFrom : Finset R
  result : Option (DataEnvelope D R)

namespace ReadAggregatorState

variable {K D Δ R : Type*} [LinearOrder R] [DeltaReplicatedData D Δ]

/-- The local value takes part in the result without counting as a reply. -/
def new (key : K) (consistency : ReadConsistency) (remoteNodes : List R)
    (localValue : Option (DataEnvelope D R)) :
    Except AggregationError (ReadAggregatorState K D R) :=
  (requiredRemoteCountForRead consistency remoteNodes.length).map fun required =>
    ⟨key, remoteNodes, required, 0, ∅, localValue⟩

variable (s : ReadAggregatorState K D R) {e : DataEnvelope D R}

/-- Replies are merged without cleaning. -/
def mergeResult : Option (DataEnvelope D R) → Option (DataEnvelope D R) → Option (DataEnvelope D R)
  | some left, some right => some (left.merge right)
  | some left, none => some left
  | none, some right => some right
  | none, none => none

/-- Counts every call. -/
def recordRead (envelope : Option (DataEnvelope D R)) : ReadAggregatorState K D R :=
  { s with received := s.received + 1, result := mergeResult s.result envelope }

/-- Takes at most one reply of a known replica. -/
def recordReadFrom (replica : R) (envelope : Option (DataEnvelope D R)) :
    ReadAggregatorState K D R :=
  if replica ∉ s.remoteNodes ∨ replica ∈ s.receivedFrom then s
  else { s with receivedFrom := insert replica s.receivedFrom }.recordRead envelope

def outcome : ReadAggregationOutcome D R :=
  if s.remoteNodes.length < s.requiredRemoteReads then .failure s.requiredRemoteReads s.received
  else if s.received < s.requiredRemoteReads then .inProgress
  else
    match s.result with
    | some envelope => .success envelope
    | none => .notFound

def timeout : ReadAggregationOutcome D R :=
  match s.outcome with
  | .inProgress => .failure s.requiredRemoteReads s.received
  | outcome => outcome

lemma outcome_success_iff {s : ReadAggregatorState K D R} :
    s.outcome = .success e ↔ s.requiredRemoteReads ≤ s.remoteNodes.length ∧
      s.requiredRemoteReads ≤ s.received ∧ s.result = some e := by
  unfold outcome
  split_ifs with h1 h2
  · simp only [false_iff]
    omega
  · simp only [false_iff]
    omega
  · cases hr : s.result with
    | none => simp
    | some envelope =>
      simp only [ReadAggregationOutcome.success.injEq, Option.some.injEq]
      constructor
      · exact fun h => ⟨by omega, by omega, h⟩
      · exact fun h => h.2.2

lemma timeout_success_iff {s : ReadAggregatorState K D R} :
    s.timeout = .success e ↔ s.outcome = .success e := by
  unfold timeout
  cases s.outcome <;> simp

end ReadAggregatorState

end Kairo.DistributedData
