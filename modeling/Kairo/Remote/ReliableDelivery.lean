import Kairo.Remote.Association
import Mathlib.Data.List.TakeWhile

/-!
# Reliable delivery of system messages

Sender-side retention and receiver-side ordering for one association.  The sender numbers and retains
envelopes until an acknowledgement or negative acknowledgement covers them; the receiver classifies an
envelope as the next delivery, a duplicate or a gap.  The wire codecs are left out: a frame is the
value it encodes.
-/

namespace Kairo.Remote

/-- A serialized system envelope; `recipient` is the association address of the recipient. -/
structure RemoteEnvelope (A : Type*) where
  recipient : A
  manifest : String
  payload : List UInt8
  deriving DecidableEq

structure ReliableSystemEnvelope (A : Type*) where
  fromUid : ℕ
  toUid : ℕ
  sequenceNr : ℕ
  envelope : RemoteEnvelope A
  deriving DecidableEq

structure ReliableSystemAck where
  fromUid : ℕ
  toUid : ℕ
  sequenceNr : ℕ
  deriving DecidableEq

structure ReliableSystemNack where
  fromUid : ℕ
  toUid : ℕ
  highestContiguousSequenceNr : ℕ
  deriving DecidableEq

/-- Adds one to a 64-bit number. -/
def checkedSucc (n : ℕ) : Option ℕ := if n < 2 ^ 64 - 1 then some (n + 1) else none

lemma checkedSucc_eq_some {n m : ℕ} (h : checkedSucc n = some m) : m = n + 1 := by
  unfold checkedSucc at h
  split_ifs at h
  exact (Option.some.inj h).symm

variable {A : Type*}

/-! ## The sender -/

structure ReliableSystemSender (A : Type*) where
  localUid : ℕ
  remoteUid : ℕ
  nextSequenceNr : ℕ
  capacity : ℕ
  unacknowledged : List (ReliableSystemEnvelope A)
  deriving DecidableEq

namespace ReliableSystemSender

variable (s : ReliableSystemSender A)

def new (localUid remoteUid capacity : ℕ) : Except (RemoteError A) (ReliableSystemSender A) :=
  if capacity = 0 then
    .error (.invalidReliableSystemDelivery "sender buffer capacity must be greater than zero")
  else .ok ⟨localUid, remoteUid, 1, capacity, []⟩

def pendingLen : ℕ := s.unacknowledged.length

def retain (envelope : RemoteEnvelope A) :
    Except (RemoteError A) (ReliableSystemSender A × ReliableSystemEnvelope A) :=
  if s.capacity ≤ s.unacknowledged.length then .error (.reliableSystemBufferFull s.capacity)
  else match checkedSucc s.nextSequenceNr with
    | none => .error (.invalidReliableSystemDelivery "sender sequence number overflow")
    | some next =>
      let reliable := ⟨s.localUid, s.remoteUid, s.nextSequenceNr, envelope⟩
      .ok ({ s with
          nextSequenceNr := next
          unacknowledged := s.unacknowledged ++ [reliable] }, reliable)

def validateReply (fromUid toUid sequenceNr : ℕ) : Except (RemoteError A) Unit :=
  if fromUid ≠ s.remoteUid ∨ toUid ≠ s.localUid then
    .error (.invalidReliableSystemDelivery
      s!"reply association {fromUid}->{toUid} does not match {s.remoteUid}->{s.localUid}")
  else
    let highestSent := s.nextSequenceNr - 1
    if highestSent < sequenceNr then
      .error (.invalidReliableSystemDelivery
        s!"reply sequence {sequenceNr} exceeds highest sent {highestSent}")
    else .ok ()

/-- Drops the envelopes up to a sequence number and counts them. -/
def clearThrough (sequenceNr : ℕ) : ReliableSystemSender A × ℕ :=
  ({ s with unacknowledged := s.unacknowledged.dropWhile (·.sequenceNr ≤ sequenceNr) },
    (s.unacknowledged.takeWhile (·.sequenceNr ≤ sequenceNr)).length)

def acknowledge (ack : ReliableSystemAck) :
    Except (RemoteError A) (ReliableSystemSender A × ℕ) :=
  match s.validateReply ack.fromUid ack.toUid ack.sequenceNr with
  | .error e => .error e
  | .ok () => .ok (s.clearThrough ack.sequenceNr)

def negativeAcknowledge (nack : ReliableSystemNack) :
    Except (RemoteError A) (ReliableSystemSender A × ℕ) :=
  match s.validateReply nack.fromUid nack.toUid nack.highestContiguousSequenceNr with
  | .error e => .error e
  | .ok () => .ok (s.clearThrough nack.highestContiguousSequenceNr)

def retryBatch : List (ReliableSystemEnvelope A) := s.unacknowledged

/-- Starts a fresh sequence and returns the envelopes that were retained. -/
def resetRemoteUid (remoteUid : ℕ) : ReliableSystemSender A × List (RemoteEnvelope A) :=
  ({ s with remoteUid, nextSequenceNr := 1, unacknowledged := [] },
    s.unacknowledged.map (·.envelope))

variable {s} {reliable : ReliableSystemEnvelope A} {x : ReliableSystemSender A × ℕ}

lemma acknowledge_eq_ok {ack : ReliableSystemAck} (h : s.acknowledge ack = .ok x) :
    s.clearThrough ack.sequenceNr = x := by
  unfold acknowledge at h
  split at h
  · cases h
  · exact Except.ok.inj h

lemma negativeAcknowledge_eq_ok {nack : ReliableSystemNack}
    (h : s.negativeAcknowledge nack = .ok x) :
    s.clearThrough nack.highestContiguousSequenceNr = x := by
  unfold negativeAcknowledge at h
  split at h
  · cases h
  · exact Except.ok.inj h

lemma retain_eq_ok {envelope : RemoteEnvelope A} {s' : ReliableSystemSender A}
    (h : s.retain envelope = .ok (s', reliable)) :
    reliable = ⟨s.localUid, s.remoteUid, s.nextSequenceNr, envelope⟩ ∧
      s' = { s with
        nextSequenceNr := s.nextSequenceNr + 1
        unacknowledged := s.unacknowledged ++ [reliable] } := by
  unfold retain at h
  split_ifs at h
  split at h
  · cases h
  · rename_i next hnext
    obtain rfl := checkedSucc_eq_some hnext
    injection h with h
    obtain ⟨h1, h2⟩ := Prod.mk.inj h
    subst h2
    exact ⟨rfl, h1.symm⟩

lemma mem_take_clearThrough {n : ℕ} {e : ReliableSystemEnvelope A}
    (h : e ∈ s.unacknowledged.take (s.clearThrough n).2) :
    e ∈ s.unacknowledged ∧ e.sequenceNr ≤ n := by
  have hpre : s.unacknowledged.takeWhile (·.sequenceNr ≤ n) <+: s.unacknowledged :=
    List.takeWhile_prefix _
  have heq : s.unacknowledged.take (s.clearThrough n).2 =
      s.unacknowledged.takeWhile (·.sequenceNr ≤ n) := (List.prefix_iff_eq_take.mp hpre).symm
  rw [heq] at h
  have hle := List.mem_takeWhile_imp h
  exact ⟨hpre.subset h, of_decide_eq_true hle⟩

end ReliableSystemSender

/-! ## The receiver -/

inductive ReliableSystemReceiveOutcome (A : Type*)
  | deliver (envelope : RemoteEnvelope A) (ack : ReliableSystemAck)
  | duplicate (ack : ReliableSystemAck)
  | gap (nack : ReliableSystemNack)
  deriving DecidableEq

structure ReliableSystemReceiver where
  localUid : ℕ
  remoteUid : ℕ
  nextExpectedSequenceNr : ℕ
  deriving DecidableEq

namespace ReliableSystemReceiver

variable (r : ReliableSystemReceiver)

def new (localUid remoteUid : ℕ) : ReliableSystemReceiver := ⟨localUid, remoteUid, 1⟩

def ack : ReliableSystemAck := ⟨r.localUid, r.remoteUid, r.nextExpectedSequenceNr - 1⟩

/-- Only an envelope that is the next one advances the state. -/
def receive (reliable : ReliableSystemEnvelope A) :
    Except (RemoteError A) (ReliableSystemReceiver × ReliableSystemReceiveOutcome A) :=
  if reliable.fromUid ≠ r.remoteUid ∨ reliable.toUid ≠ r.localUid then
    .error (.invalidReliableSystemDelivery (s!"envelope association " ++
      s!"{reliable.fromUid}->{reliable.toUid} does not match {r.remoteUid}->{r.localUid}"))
  else if reliable.sequenceNr = r.nextExpectedSequenceNr then
    match checkedSucc r.nextExpectedSequenceNr with
    | none => .error (.invalidReliableSystemDelivery "receiver sequence number overflow")
    | some next =>
      let r' := { r with nextExpectedSequenceNr := next }
      .ok (r', .deliver reliable.envelope r'.ack)
  else if reliable.sequenceNr < r.nextExpectedSequenceNr then .ok (r, .duplicate r.ack)
  else .ok (r, .gap ⟨r.localUid, r.remoteUid, r.nextExpectedSequenceNr - 1⟩)

lemma receive_eq_ok {r r' : ReliableSystemReceiver} {outcome : ReliableSystemReceiveOutcome A}
    (h : r.receive reliable = .ok (r', outcome)) :
    (reliable.sequenceNr = r.nextExpectedSequenceNr ∧
        r' = { r with nextExpectedSequenceNr := r.nextExpectedSequenceNr + 1 } ∧
        outcome = .deliver reliable.envelope ⟨r.localUid, r.remoteUid, r.nextExpectedSequenceNr⟩) ∨
      (r' = r ∧ (outcome = .duplicate r.ack ∨
        outcome = .gap ⟨r.localUid, r.remoteUid, r.nextExpectedSequenceNr - 1⟩)) := by
  unfold receive at h
  split_ifs at h with h1 h2 h3
  · split at h
    · cases h
    · rename_i next hnext
      obtain rfl := checkedSucc_eq_some hnext
      injection h with h
      obtain ⟨rfl, rfl⟩ := Prod.mk.inj h
      exact .inl ⟨h2, rfl, rfl⟩
  · injection h with h
    obtain ⟨rfl, rfl⟩ := Prod.mk.inj h
    exact .inr ⟨rfl, .inl rfl⟩
  · injection h with h
    obtain ⟨rfl, rfl⟩ := Prod.mk.inj h
    exact .inr ⟨rfl, .inr rfl⟩

end ReliableSystemReceiver

end Kairo.Remote
