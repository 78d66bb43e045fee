import Kairo.Lib.Machine
import Kairo.Remote.ReliableRuntime

/-!
# One runtime under concurrent calls

The calls of a runtime take its lock only for the part that works on the senders.  A send looks up the
UID of the association before, an overflow, an invalid frame or a tick fails the association after, and
`failAssociation` itself quarantines the association before it takes the lock to remove the sender.
Here each of these parts is a step of its own, and the steps of different calls interleave.
-/

namespace Kairo.Remote

open Kairo.Lib

namespace ReliableSystemDeliveryRuntime

variable {A : Type*} [DecidableEq A] [ToString A] (rt : ReliableSystemDeliveryRuntime A)

/-! ## The parts of a call -/

/-- The locked section of a send with the UID that was looked up before. -/
def sendLocked (now remoteUid : ℕ) (raw : Except (RemoteError A) Unit) (envelope : RemoteEnvelope A) :
    RuntimeCall A Unit :=
  let state := rt.senderState now envelope.recipient remoteUid
  let (state, incarnationFailures) := resetIncarnation now envelope.recipient remoteUid state
  let state := if state.sender.pendingLen = 0 then { state with lastAckAt := now } else state
  let (state, frames, result) := retainAndSend state raw envelope
  ⟨{ rt with senders := rt.senders.insert envelope.recipient state }, frames, incarnationFailures,
    result⟩

/-- The first part of `failAssociation`. -/
def quarantineFailed (remote : A) (remoteUid : ℕ) (reason : String) :
    ReliableSystemDeliveryRuntime A :=
  { rt with associations := (rt.associations.quarantineIfUid remote remoteUid reason).1 }

/-- The second part of `failAssociation`, under the lock. -/
def removeSender (remote : A) : ReliableSystemDeliveryRuntime A :=
  { rt with senders := rt.senders.erase remote }

/-- Without other steps in between, the parts are a call. -/
lemma sendSelected_eq_sendLocked (now : ℕ) (raw : Except (RemoteError A) Unit)
    {envelope : RemoteEnvelope A} (hm : envelope.manifest ∈ rt.reliableManifests) {remoteUid : ℕ}
    (hu : rt.associations.uidForAddress envelope.recipient = some remoteUid) :
    let call := rt.sendLocked now remoteUid raw envelope
    (rt.sendSelected now raw envelope).frames = call.frames ∧
      (rt.sendSelected now raw envelope).result = call.result ∧
      (rt.sendSelected now raw envelope).runtime =
        if isOverflow call.result then
          (call.runtime.quarantineFailed envelope.recipient remoteUid
            "reliable system delivery overflow").removeSender envelope.recipient
        else call.runtime := by
  unfold sendSelected
  rw [if_neg (not_not.mpr hm), hu]
  dsimp only [sendLocked]
  split_ifs <;> exact ⟨rfl, rfl, rfl⟩

def hasSender (remote : A) (remoteUid : ℕ) : Bool :=
  (rt.senders.lookup remote).any fun state => state.sender.remoteUid = remoteUid

omit [ToString A] in
/-- The sender that a locked section works on: the one of the UID, or one that starts over. -/
lemma sendLocked_spec (now remoteUid : ℕ) (raw : Except (RemoteError A) Unit)
    (envelope : RemoteEnvelope A)
    (hlocal : ∀ state ∈ rt.senders.lookup envelope.recipient, state.sender.localUid = rt.localUid) :
    let call := rt.sendLocked now remoteUid raw envelope
    ∃ (base : ReliableSystemSender A) (state : ReliableSenderState A),
      ((∃ old ∈ rt.senders.lookup envelope.recipient, old.sender = base) ∨
        (rt.hasSender envelope.recipient remoteUid = false ∧ base.localUid = rt.localUid ∧
          base.nextSequenceNr = 1 ∧ base.unacknowledged = [])) ∧
      base.remoteUid = remoteUid ∧
      call.runtime = { rt with senders := rt.senders.insert envelope.recipient state } ∧
      ((state.sender = base ∧ call.frames = []) ∨
        ∃ e, base.retain envelope = .ok (state.sender, e) ∧
          ∀ f ∈ call.frames, f = (envelope.recipient, .envelope e)) := by
  set old := rt.senderState now envelope.recipient remoteUid with hold
  set reset := (resetIncarnation now envelope.recipient remoteUid old).1 with hreset
  have htime : ∀ state : ReliableSenderState A,
      (if state.sender.pendingLen = 0 then { state with lastAckAt := now } else state).sender =
        state.sender := by
    intro state
    split_ifs <;> rfl
  refine ⟨reset.sender, (retainAndSend (if reset.sender.pendingLen = 0 then
    { reset with lastAckAt := now } else reset) raw envelope).1, ?_, ?_, rfl, ?_⟩
  · by_cases hu : old.sender.remoteUid = remoteUid
    · have hr : reset = old := by
        rw [hreset, resetIncarnation, if_neg (not_not.mpr hu)]
      cases hl : rt.senders.lookup envelope.recipient with
      | none =>
        refine .inr ⟨by rw [hasSender, hl]; rfl, ?_⟩
        rw [hr, hold, senderState, hl]
        exact ⟨rfl, rfl, rfl⟩
      | some state =>
        refine .inl ⟨state, rfl, ?_⟩
        rw [hr, hold, senderState, hl]
        rfl
    · have hr : reset.sender = (old.sender.resetRemoteUid remoteUid).1 := by
        rw [hreset, resetIncarnation, if_pos hu]
      cases hl : rt.senders.lookup envelope.recipient with
      | none =>
        rw [hold, senderState, hl] at hu
        exact absurd rfl hu
      | some state =>
        have hstate : old = state := by rw [hold, senderState, hl]; rfl
        rw [hstate] at hu
        refine .inr ⟨?_, ?_⟩
        · rw [hasSender, hl]
          exact decide_eq_false hu
        · rw [hr, hstate]
          exact ⟨hlocal state hl, rfl, rfl⟩
  · rw [hreset, resetIncarnation]
    by_cases hu : old.sender.remoteUid ≠ remoteUid
    · rw [if_pos hu]
      rfl
    · rw [if_neg hu]
      exact not_not.mp hu
  · have hcases := (retainAndSend_cases (if reset.sender.pendingLen = 0 then
      { reset with lastAckAt := now } else reset) raw envelope).1
    rw [htime] at hcases
    exact hcases

end ReliableSystemDeliveryRuntime

/-! ## Interleaved calls -/

structure ConcurrentRuntime (A : Type*) where
  runtime : ReliableSystemDeliveryRuntime A
  /-- Sends that have looked up a UID and wait for the lock. -/
  sending : List (RemoteEnvelope A × ℕ)
  /-- Validated replies that wait for the lock, with the active UID. -/
  replying : List (A × ℕ × ReliableFrame A)
  /-- Refused retries, with the UID of the sender. -/
  refused : List (A × ℕ)
  /-- Calls of `failAssociation`. -/
  failing : List (A × ℕ × String)
  /-- Calls of `failAssociation` that wait for the lock. -/
  removing : List A
  /-- The envelopes that the raw outbound has accepted. -/
  transmitted : List (ReliableSystemEnvelope A)
  /-- The remote UIDs for which a sender has existed. -/
  incarnations : Finset ℕ

namespace ConcurrentRuntime

open ReliableSystemDeliveryRuntime

variable {A : Type*} [DecidableEq A] [ToString A]

inductive Action (A : Type*)
  | connect (q : A)
  | handshake (q : A) (uid : ℕ)
  | close (q : A) (reason : String)
  | quarantine (q : A) (reason : String)
  | lookup (envelope : RemoteEnvelope A)
  | send (i now : ℕ) (raw : Except (RemoteError A) Unit)
  | receiveReply (q : A) (reply : ReliableFrame A)
  | applyReply (i now : ℕ)
  /-- A reliable frame that the runtime rejects. -/
  | invalidFrame (q : A) (reason : String)
  | retry (q : A) (now accepted : ℕ)
  | checkRefused (i : ℕ)
  | failAssociation (i : ℕ)
  | removeSender (i : ℕ)

def envelopesOf (frames : List (ReliableFrame A)) : List (ReliableSystemEnvelope A) :=
  frames.filterMap fun
    | .envelope e => some e
    | .ack _ | .nack _ => none

def start (localAddress : A) (localUid : ℕ) (manifests : List String)
    (settings : ReliableSystemDeliverySettings) : ConcurrentRuntime A :=
  ⟨.new localAddress localUid manifests settings, [], [], [], [], [], [], ∅⟩

variable (w : ConcurrentRuntime A)

def withAssociations (associations : RemoteAssociationRegistry A) : ConcurrentRuntime A :=
  { w with runtime := { w.runtime with associations } }

/-- The UID that a reply claims, and what it does to a sender. -/
def replyUid : ReliableFrame A → Option ℕ
  | .ack ack => some ack.fromUid
  | .nack nack => some nack.fromUid
  | .envelope _ => none

def replyTo (s : ReliableSystemSender A) :
    ReliableFrame A → Except (RemoteError A) (ReliableSystemSender A × ℕ)
  | .ack ack => s.acknowledge ack
  | .nack nack => s.negativeAcknowledge nack
  | .envelope _ => .ok (s, 0)

/-- The locked section of `receiveAck` and `receiveNack`. -/
def applyReplyLocked (now : ℕ) (q : A) (uid : ℕ) (reply : ReliableFrame A) : ConcurrentRuntime A :=
  match w.runtime.senders.lookup q with
  | none => w
  | some state =>
    match replyTo state.sender reply with
    | .error e => { w with failing := w.failing ++ [(q, uid, e.message)] }
    | .ok (sender, _) =>
      { w with runtime := { w.runtime with senders := w.runtime.senders.insert q ⟨sender, now⟩ } }

/-- The locked section of a tick, for one association. -/
def retryLocked (q : A) (now accepted : ℕ) : ConcurrentRuntime A :=
  match (w.runtime.senders.lookup q).map (w.runtime.tickPlan now · accepted) with
  | none | some .idle => w
  | some (.giveUp uid) =>
    { w with failing := w.failing ++
        [(q, uid, "reliable system acknowledgement give-up deadline elapsed")] }
  | some (.resend uid frames refused) =>
    { w with
      transmitted := w.transmitted ++ envelopesOf frames
      refused := if refused then w.refused ++ [(q, uid)] else w.refused }

def step : Action A → Option (ConcurrentRuntime A)
  | .connect q => some (w.withAssociations (w.runtime.associations.association q))
  | .handshake q uid =>
    match w.runtime.associations.completeHandshake q uid with
    | .ok associations => some (w.withAssociations associations)
    | .error _ => none
  | .close q reason => some (w.withAssociations (w.runtime.associations.modify q (·.close reason)))
  | .quarantine q reason =>
    some (w.withAssociations
      (w.runtime.associations.modify q fun s => .quarantined s.associationUid reason))
  | .lookup envelope =>
    if envelope.manifest ∉ w.runtime.reliableManifests then none
    else match w.runtime.associations.uidForAddress envelope.recipient with
      | none => some w
      | some uid => some { w with sending := w.sending ++ [(envelope, uid)] }
  | .send i now raw => (w.sending[i]?).map fun (envelope, uid) =>
    let call := w.runtime.sendLocked now uid raw envelope
    { w with
      runtime := call.runtime
      sending := w.sending.eraseIdx i
      failing :=
        if isOverflow call.result then
          w.failing ++ [(envelope.recipient, uid, "reliable system delivery overflow")]
        else w.failing
      transmitted := w.transmitted ++ envelopesOf (call.frames.map (·.2))
      incarnations := insert uid w.incarnations }
  | .receiveReply q reply =>
    match w.runtime.associations.uidForAddress q, replyUid reply with
    | some activeUid, some claimedUid =>
      if claimedUid ≠ activeUid then
        some { w with failing := w.failing ++ [(q, activeUid,
          s!"reliable frame UID {claimedUid} does not match active UID {activeUid}")] }
      else some { w with replying := w.replying ++ [(q, activeUid, reply)] }
    | none, some _ => some w
    | _, none => none
  | .applyReply i now => (w.replying[i]?).map fun (q, uid, reply) =>
    { w with replying := w.replying.eraseIdx i }.applyReplyLocked now q uid reply
  | .invalidFrame q reason =>
    match w.runtime.associations.uidForAddress q with
    | none => some w
    | some activeUid => some { w with failing := w.failing ++ [(q, activeUid, reason)] }
  | .retry q now accepted => some (w.retryLocked q now accepted)
  | .checkRefused i => (w.refused[i]?).map fun (q, uid) =>
    { w with
      refused := w.refused.eraseIdx i
      failing :=
        if w.runtime.associationIsQuarantined q uid then
          w.failing ++ [(q, uid, "reliable system retry failed on quarantined association")]
        else w.failing }
  | .failAssociation i => (w.failing[i]?).map fun (q, uid, reason) =>
    { w with
      runtime := w.runtime.quarantineFailed q uid reason
      failing := w.failing.eraseIdx i
      removing := w.removing ++ [q] }
  | .removeSender i => (w.removing[i]?).map fun q =>
    { w with runtime := w.runtime.removeSender q, removing := w.removing.eraseIdx i }

def machine (localAddress : A) (localUid : ℕ) (manifests : List String)
    (settings : ReliableSystemDeliverySettings) : Machine (ConcurrentRuntime A) (Action A) where
  init w := w = start localAddress localUid manifests settings
  step := step

/-- A locked section that finds no sender with its UID is the first one for this UID. -/
def Careful : Action A → Prop
  | .send i _ _ => ∀ p ∈ w.sending[i]?,
      w.runtime.hasSender p.1.recipient p.2 = true ∨ p.2 ∉ w.incarnations
  | _ => True

instance (w : ConcurrentRuntime A) : (a : Action A) → Decidable (Careful w a)
  | .send i _ _ => inferInstanceAs (Decidable (∀ p ∈ w.sending[i]?,
      w.runtime.hasSender p.1.recipient p.2 = true ∨ p.2 ∉ w.incarnations))
  | .connect .. | .handshake .. | .close .. | .quarantine .. | .lookup .. | .receiveReply ..
  | .applyReply .. | .invalidFrame .. | .retry .. | .checkRefused .. | .failAssociation ..
  | .removeSender .. => isTrue trivial

end ConcurrentRuntime

end Kairo.Remote
