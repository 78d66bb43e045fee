import Kairo.Remote.ReliableDelivery
import Kairo.Remote.StreamFraming

/-!
# The runtime of reliable delivery

One runtime keeps a sender and a receiver for every association.  The raw outbound, the clock and the
inner frame handler are inputs: a send has a raw result, a tick says how many frames were accepted for
each association, and a delivery is split into the classification of the frame (`receiveReliable`) and
the end of the handler call (`finishDelivery`), since other frames may be handled in between.
-/

namespace Kairo.Remote

open Kairo.Lib FinMap List

/-- Validated settings; times are in milliseconds. -/
structure ReliableSystemDeliverySettings where
  bufferCapacity : ℕ
  retryInterval : ℕ
  giveUpAfter : ℕ
  bufferCapacity_pos : 0 < bufferCapacity
  retryInterval_pos : 0 < retryInterval
  retryInterval_le : retryInterval ≤ giveUpAfter

namespace ReliableSystemDeliverySettings

variable {A : Type*}

def new (bufferCapacity retryInterval giveUpAfter : ℕ) :
    Except (RemoteError A) ReliableSystemDeliverySettings :=
  if h1 : bufferCapacity = 0 then
    .error (.invalidReliableSystemDelivery "runtime buffer capacity must be greater than zero")
  else if h2 : retryInterval = 0 then
    .error (.invalidReliableSystemDelivery "runtime retry interval must be greater than zero")
  else if h3 : giveUpAfter < retryInterval then
    .error (.invalidReliableSystemDelivery
      "runtime give-up duration must not be shorter than the retry interval")
  else .ok ⟨bufferCapacity, retryInterval, giveUpAfter, Nat.pos_of_ne_zero h1,
    Nat.pos_of_ne_zero h2, Nat.le_of_not_lt h3⟩

def default : ReliableSystemDeliverySettings where
  bufferCapacity := 256
  retryInterval := 500
  giveUpAfter := 10000
  bufferCapacity_pos := by decide
  retryInterval_pos := by decide
  retryInterval_le := by decide

end ReliableSystemDeliverySettings

structure ReliableSystemDeliveryFailure (A : Type*) where
  remote : A
  remoteUid : ℕ
  envelope : RemoteEnvelope A
  reason : String
  deriving DecidableEq

inductive ReliableFrame (A : Type*)
  | envelope (reliable : ReliableSystemEnvelope A)
  | ack (ack : ReliableSystemAck)
  | nack (nack : ReliableSystemNack)
  deriving DecidableEq

def ReliableFrame.manifest {A : Type*} : ReliableFrame A → String
  | .envelope _ => "kairo.remote.system.reliable-envelope"
  | .ack _ => "kairo.remote.system.reliable-ack"
  | .nack _ => "kairo.remote.system.reliable-nack"

def ReliableFrame.replyNr {A : Type*} : ReliableFrame A → Option ℕ
  | .envelope _ => none
  | .ack a => some a.sequenceNr
  | .nack n => some n.highestContiguousSequenceNr

def RemoteStreamId.name : RemoteStreamId → String
  | .control => "Control"
  | .ordinary => "Ordinary"
  | .large => "Large"

structure ReliableSenderState (A : Type*) where
  sender : ReliableSystemSender A
  lastAckAt : ℕ

structure ReliableSystemDeliveryRuntime (A : Type*) where
  localAddress : A
  localUid : ℕ
  associations : RemoteAssociationRegistry A
  reliableManifests : List String
  settings : ReliableSystemDeliverySettings
  senders : FinMap A (ReliableSenderState A)
  receivers : FinMap A ReliableSystemReceiver

/-- What a call of the runtime leaves behind: frames handed to the raw outbound, failures reported to
the observer and the result. -/
structure RuntimeCall (A α : Type*) where
  runtime : ReliableSystemDeliveryRuntime A
  frames : List (A × ReliableFrame A)
  failures : List (ReliableSystemDeliveryFailure A)
  result : Except (RemoteError A) α

/-- A delivery in progress: the handler runs, the acknowledgement is sent after it succeeds. -/
structure Delivery (A : Type*) where
  remote : A
  reliable : ReliableSystemEnvelope A
  ack : ReliableSystemAck
  deriving DecidableEq

namespace ReliableSystemDeliveryRuntime

variable {A : Type*} [DecidableEq A] [ToString A] (rt : ReliableSystemDeliveryRuntime A)

def new (localAddress : A) (localUid : ℕ) (reliableManifests : List String)
    (settings : ReliableSystemDeliverySettings) : ReliableSystemDeliveryRuntime A :=
  ⟨localAddress, localUid, .new, reliableManifests, settings, ∅, ∅⟩

/-- Quarantines the incarnation and drops the sender state, whether it was quarantined or not. -/
def failAssociation (remote : A) (remoteUid : ℕ) (reason : String) :
    ReliableSystemDeliveryRuntime A × List (ReliableSystemDeliveryFailure A) :=
  ({ rt with
      associations := (rt.associations.quarantineIfUid remote remoteUid reason).1
      senders := rt.senders.erase remote },
    ((rt.senders.lookup remote).elim [] fun state => (state.sender.resetRemoteUid remoteUid).2).map
      fun envelope => ⟨remote, remoteUid, envelope, reason⟩)

def invalidTransition {α : Type*} (remote : A) (remoteUid : ℕ) (reason : String) : RuntimeCall A α :=
  let (rt, failures) := rt.failAssociation remote remoteUid reason
  ⟨rt, [], failures, .error (.invalidReliableSystemDelivery reason)⟩

def senderState (now : ℕ) (address : A) (remoteUid : ℕ) : ReliableSenderState A :=
  (rt.senders.lookup address).getD
    ⟨⟨rt.localUid, remoteUid, 1, rt.settings.bufferCapacity, []⟩, now⟩

/-- An overflow of the buffer or of the control lane fails the association. -/
def isOverflow {α : Type*} : Except (RemoteError A) α → Bool
  | .error (.reliableSystemBufferFull _) => true
  | .error (.outboundLaneQueueFull lane _) => lane = "control"
  | _ => false

/-- A sender of another incarnation starts over, and what it retained has failed. -/
def resetIncarnation (now : ℕ) (address : A) (remoteUid : ℕ) (state : ReliableSenderState A) :
    ReliableSenderState A × List (ReliableSystemDeliveryFailure A) :=
  if state.sender.remoteUid ≠ remoteUid then
    let (sender, failed) := state.sender.resetRemoteUid remoteUid
    (⟨sender, now⟩, failed.map fun envelope =>
      ⟨address, state.sender.remoteUid, envelope, "remote association incarnation changed"⟩)
  else (state, [])

/-- Retains an envelope and hands it to the raw outbound, which accepts or refuses it. -/
def retainAndSend (state : ReliableSenderState A) (raw : Except (RemoteError A) Unit)
    (envelope : RemoteEnvelope A) :
    ReliableSenderState A × List (A × ReliableFrame A) × Except (RemoteError A) Unit :=
  match state.sender.retain envelope with
  | .error e => (state, [], .error e)
  | .ok (sender, reliable) => ({ state with sender },
      if raw.isOk then [(envelope.recipient, .envelope reliable)] else [], raw)

def sendSelected (now : ℕ) (raw : Except (RemoteError A) Unit) (envelope : RemoteEnvelope A) :
    RuntimeCall A Unit :=
  if envelope.manifest ∉ rt.reliableManifests then ⟨rt, [], [], raw⟩
  else match rt.associations.uidForAddress envelope.recipient with
    | none => ⟨rt, [], [], .error (.invalidReliableSystemDelivery
        (s!"reliable manifest `{envelope.manifest}` has no completed association UID for " ++
          s!"{envelope.recipient}"))⟩
    | some remoteUid =>
      let state := rt.senderState now envelope.recipient remoteUid
      let (state, incarnationFailures) := resetIncarnation now envelope.recipient remoteUid state
      let state := if state.sender.pendingLen = 0 then { state with lastAckAt := now } else state
      let (state, frames, result) := retainAndSend state raw envelope
      let rt := { rt with senders := rt.senders.insert envelope.recipient state }
      if isOverflow result then
        let (rt, failures) :=
          rt.failAssociation envelope.recipient remoteUid "reliable system delivery overflow"
        ⟨rt, frames, incarnationFailures ++ failures, result⟩
      else ⟨rt, frames, incarnationFailures, result⟩

/-- The UID a frame claims must be the one of the association. -/
def validateRemoteUid {α : Type*} (remote : A) (claimedUid : ℕ)
    (next : ℕ → RuntimeCall A α) : RuntimeCall A α :=
  match rt.associations.uidForAddress remote with
  | none => ⟨rt, [], [], .error (.invalidReliableSystemDelivery
      s!"reliable frame from {remote} has no completed association UID")⟩
  | some activeUid =>
    if claimedUid ≠ activeUid then
      rt.invalidTransition remote activeUid
        s!"reliable frame UID {claimedUid} does not match active UID {activeUid}"
    else next activeUid

/-- The receiver state of an association, reset for a new incarnation of the remote system. -/
def receiverState (remote : A) (activeUid : ℕ) : ReliableSystemReceiver :=
  let receiver := (rt.receivers.lookup remote).getD (.new rt.localUid activeUid)
  if receiver.remoteUid ≠ activeUid then .new rt.localUid activeUid else receiver

/-- What follows from the outcome of the receiver: a delivery, or an answer. -/
def outcomeCall (remote : A) (reliable : ReliableSystemEnvelope A) :
    ReliableSystemReceiveOutcome A → RuntimeCall A (Option (Delivery A))
  | .deliver _ ack => ⟨rt, [], [], .ok (some ⟨remote, reliable, ack⟩)⟩
  | .duplicate ack => ⟨rt, [(remote, .ack ack)], [], .ok none⟩
  | .gap nack => ⟨rt, [(remote, .nack nack)], [], .ok none⟩

/-- Hands an envelope of the active incarnation to the receiver. -/
def classify (remote : A) (reliable : ReliableSystemEnvelope A) (activeUid : ℕ) :
    RuntimeCall A (Option (Delivery A)) :=
  if reliable.toUid ≠ rt.localUid then
    rt.invalidTransition remote activeUid (s!"reliable envelope target UID {reliable.toUid} " ++
      s!"does not match local UID {rt.localUid}")
  else
    let receiver := rt.receiverState remote activeUid
    match receiver.receive reliable with
    | .error e =>
      { rt with receivers := rt.receivers.insert remote receiver }.invalidTransition remote
        activeUid e.message
    | .ok (receiver, outcome) =>
      { rt with receivers := rt.receivers.insert remote receiver }.outcomeCall remote reliable outcome

def receiveReliable (remote : A) (reliable : ReliableSystemEnvelope A) :
    RuntimeCall A (Option (Delivery A)) :=
  rt.validateRemoteUid remote reliable.fromUid (rt.classify remote reliable)

/-- The end of the handler call: only a successful one is acknowledged. -/
def finishDelivery (d : Delivery A) (ok : Bool) : List (A × ReliableFrame A) :=
  if ok then [(d.remote, .ack d.ack)] else []

/-- Applies a reply to the sender state; the result counts the envelopes that are dropped. -/
def applyReply (now : ℕ) (remote : A) (kind : String)
    (apply : ReliableSystemSender A → Except (RemoteError A) (ReliableSystemSender A × ℕ))
    (activeUid : ℕ) : RuntimeCall A ℕ :=
  match rt.senders.lookup remote with
  | none => ⟨rt, [], [], .error (.invalidReliableSystemDelivery
      s!"{kind} for {remote} has no reliable sender state")⟩
  | some state =>
    match apply state.sender with
    | .error e => rt.invalidTransition remote activeUid e.message
    | .ok (sender, removed) =>
      ⟨{ rt with senders := rt.senders.insert remote ⟨sender, now⟩ }, [], [], .ok removed⟩

def receiveAck (now : ℕ) (remote : A) (ack : ReliableSystemAck) : RuntimeCall A ℕ :=
  rt.validateRemoteUid remote ack.fromUid (rt.applyReply now remote "ack" (·.acknowledge ack))

def receiveNack (now : ℕ) (remote : A) (nack : ReliableSystemNack) : RuntimeCall A ℕ :=
  rt.validateRemoteUid remote nack.fromUid
    (rt.applyReply now remote "nack" (·.negativeAcknowledge nack))

def requireControl (streamId : RemoteStreamId) (frame : ReliableFrame A) :
    Except (RemoteError A) Unit :=
  if streamId = .control then .ok ()
  else .error (.inbound
    s!"reliable protocol manifest `{frame.manifest}` arrived on {streamId.name} lane")

def associationIsQuarantined (remote : A) (remoteUid : ℕ) : Bool :=
  match rt.associations.byAddress.lookup remote with
  | some (.quarantined uid _) => uid = some remoteUid
  | _ => false

/-- What a tick does for one association: gives up, or resends the retained envelopes until the raw
outbound refuses one. -/
inductive TickPlan (A : Type*)
  | idle
  | giveUp (remoteUid : ℕ)
  | resend (remoteUid : ℕ) (frames : List (ReliableFrame A)) (refused : Bool)

def tickPlan (now : ℕ) (state : ReliableSenderState A) (accepted : ℕ) : TickPlan A :=
  if state.sender.pendingLen = 0 then .idle
  else if rt.settings.giveUpAfter ≤ now - state.lastAckAt then .giveUp state.sender.remoteUid
  else .resend state.sender.remoteUid ((state.sender.retryBatch.take accepted).map .envelope)
    (accepted < state.sender.retryBatch.length)

/-- A tick for one association, independent of the others; `accepted` is the number of frames the raw
outbound takes. -/
def retryOne (now : ℕ) (remote : A) (accepted : ℕ) : RuntimeCall A Unit :=
  match (rt.senders.lookup remote).map (rt.tickPlan now · accepted) with
  | none | some .idle => ⟨rt, [], [], .ok ()⟩
  | some (.giveUp remoteUid) =>
    let (rt, failures) := rt.failAssociation remote remoteUid
      "reliable system acknowledgement give-up deadline elapsed"
    ⟨rt, [], failures, .ok ()⟩
  | some (.resend remoteUid frames refused) =>
    let sent := frames.map (remote, ·)
    if refused ∧ rt.associationIsQuarantined remote remoteUid then
      let (rt, failures) := rt.failAssociation remote remoteUid
        "reliable system retry failed on quarantined association"
      ⟨rt, sent, failures, .ok ()⟩
    else ⟨rt, sent, [], .ok ()⟩

/-! ## What a call touches -/

/-- The state of one association only has changed, no UID was learned, and all frames go to the
association. -/
structure Touches (rt rt' : ReliableSystemDeliveryRuntime A) (frames : List (A × ReliableFrame A))
    (remote : A) : Prop where
  localUid : rt'.localUid = rt.localUid
  senders : ∀ q, q ≠ remote → rt'.senders.lookup q = rt.senders.lookup q
  receivers : ∀ q, q ≠ remote → rt'.receivers.lookup q = rt.receivers.lookup q
  uid : ∀ q u, rt'.associations.uidForAddress q = some u →
    rt.associations.uidForAddress q = some u
  frames : ∀ f ∈ frames, f.1 = remote

namespace Touches

variable {rt rt' : ReliableSystemDeliveryRuntime A} {frames : List (A × ReliableFrame A)} {remote : A}

omit [ToString A]

lemma refl : Touches rt rt [] remote :=
  ⟨rfl, fun _ _ => rfl, fun _ _ => rfl, fun _ _ h => h, fun _ hf => absurd hf not_mem_nil⟩

variable (h : Touches rt rt' frames remote)

include h

lemma insertSender (state : ReliableSenderState A) :
    Touches rt { rt' with senders := rt'.senders.insert remote state } frames remote :=
  { h with senders := fun q hq => by rw [← h.senders q hq, lookup_insert, if_neg hq] }

lemma insertReceiver (receiver : ReliableSystemReceiver) :
    Touches rt { rt' with receivers := rt'.receivers.insert remote receiver } frames remote :=
  { h with receivers := fun q hq => by rw [← h.receivers q hq, lookup_insert, if_neg hq] }

lemma failAssociation (remoteUid : ℕ) (reason : String) :
    Touches rt (rt'.failAssociation remote remoteUid reason).1 frames remote :=
  { h with
    senders := fun q hq => by
      rw [← h.senders q hq]
      exact (lookup_erase _ _ _).trans (if_neg hq)
    uid := fun q u hu => h.uid q u (RemoteAssociationRegistry.quiet_quarantineIfUid.uid hu) }

lemma send {frames' : List (A × ReliableFrame A)} (hf : ∀ f ∈ frames', f.1 = remote) :
    Touches rt rt' frames' remote := { h with frames := hf }

end Touches

/-! ## What the calls do to the association -/

section

variable (now : ℕ) {remote : A} {u : ℕ}
  (huid : ∀ u', rt.associations.uidForAddress remote = some u' → u' = u)

omit [ToString A] in
lemma lookup_failAssociation (rt : ReliableSystemDeliveryRuntime A) (remote : A) (remoteUid : ℕ)
    (reason : String) : (rt.failAssociation remote remoteUid reason).1.senders.lookup remote = none :=
  Finmap.lookup_erase _ _

def baseSender (remote : A) (u : ℕ) : ReliableSystemSender A :=
  ((rt.senders.lookup remote).map (·.sender)).getD
    ⟨rt.localUid, u, 1, rt.settings.bufferCapacity, []⟩

omit [DecidableEq A] [ToString A] in
lemma retainAndSend_cases (state : ReliableSenderState A) (raw : Except (RemoteError A) Unit)
    (envelope : RemoteEnvelope A) :
    let sent := retainAndSend state raw envelope
    ((sent.1.sender = state.sender ∧ sent.2.1 = []) ∨
      ∃ e, state.sender.retain envelope = .ok (sent.1.sender, e) ∧
        ∀ f ∈ sent.2.1, f = (envelope.recipient, .envelope e)) ∧
      (isOverflow sent.2.2 = true → sent.2.1 = []) := by
  unfold retainAndSend
  cases hr : state.sender.retain envelope with
  | error e => exact ⟨.inl ⟨rfl, rfl⟩, fun _ => rfl⟩
  | ok r =>
    cases raw with
    | error e => exact ⟨.inr ⟨r.2, rfl, nofun⟩, fun _ => rfl⟩
    | ok _ => exact ⟨.inr ⟨r.2, rfl, fun f hf => mem_singleton.mp hf⟩, nofun⟩

include huid

lemma sendSelected_cases (raw : Except (RemoteError A) Unit) (envelope : RemoteEnvelope A)
    (hremote : envelope.recipient = remote)
    (hsender : ∀ state, rt.senders.lookup remote = some state → state.sender.remoteUid = u) :
    let call := rt.sendSelected now raw envelope
    (rt.Touches call.runtime call.frames remote ∧ call.runtime.receivers = rt.receivers) ∧
      ((call.runtime = rt ∧ call.frames = []) ∨
        (∃ state, call.runtime.senders.lookup remote = some state ∧
          state.sender = rt.baseSender remote u ∧ call.frames = []) ∨
        (∃ state e, call.runtime.senders.lookup remote = some state ∧
          (rt.baseSender remote u).retain envelope = .ok (state.sender, e) ∧
          ∀ f ∈ call.frames, f = (remote, .envelope e)) ∨
        (call.runtime.senders.lookup remote = none ∧ call.frames = [])) := by
  subst hremote
  have hself : rt.Touches rt [] envelope.recipient := .refl
  unfold sendSelected
  by_cases hm : envelope.manifest ∉ rt.reliableManifests
  · rw [if_pos hm]
    exact ⟨⟨.refl, rfl⟩, .inl ⟨rfl, rfl⟩⟩
  rw [if_neg hm]
  cases hu : rt.associations.uidForAddress envelope.recipient with
  | none => exact ⟨⟨.refl, rfl⟩, .inl ⟨rfl, rfl⟩⟩
  | some u' =>
    obtain rfl := huid u' hu
    have hbase : (rt.senderState now envelope.recipient u').sender =
        rt.baseSender envelope.recipient u' := by
      unfold senderState baseSender
      cases rt.senders.lookup envelope.recipient <;> rfl
    have huid' : (rt.senderState now envelope.recipient u').sender.remoteUid = u' := by
      rw [hbase, baseSender]
      cases hl : rt.senders.lookup envelope.recipient with
      | none => rfl
      | some state => exact hsender state hl
    have hreset : resetIncarnation now envelope.recipient u'
        (rt.senderState now envelope.recipient u') =
          (rt.senderState now envelope.recipient u', []) := if_neg (not_not.mpr huid')
    dsimp only
    rw [hreset]
    -- the time of the last acknowledgement does not matter
    have hstate : ∀ state : ReliableSenderState A,
        (if state.sender.pendingLen = 0 then { state with lastAckAt := now } else state).sender =
          state.sender := by
      intro state
      split_ifs <;> rfl
    generalize hst : (if (rt.senderState now envelope.recipient u').sender.pendingLen = 0 then
      { rt.senderState now envelope.recipient u' with lastAckAt := now }
      else rt.senderState now envelope.recipient u') = state
    have hsb : state.sender = rt.baseSender envelope.recipient u' := by
      rw [← hst, hstate, hbase]
    obtain ⟨hcases, hover⟩ := retainAndSend_cases state raw envelope
    have hframes : ∀ f ∈ (retainAndSend state raw envelope).2.1, f.1 = envelope.recipient := by
      intro f hf
      obtain ⟨-, hnil⟩ | ⟨e, -, he⟩ := hcases
      · rw [hnil] at hf
        cases hf
      · rw [he f hf]
    have ht := (hself.insertSender (retainAndSend state raw envelope).1).send hframes
    split_ifs with ho
    · exact ⟨⟨ht.failAssociation _ _, rfl⟩,
        .inr (.inr (.inr ⟨lookup_failAssociation _ _ _ _, hover ho⟩))⟩
    · refine ⟨⟨ht, rfl⟩, .inr ?_⟩
      rw [hsb] at hcases
      obtain ⟨hs, hnil⟩ | ⟨e, hr, he⟩ := hcases
      · exact .inl ⟨_, Finmap.lookup_insert _, hs, hnil⟩
      · exact .inr (.inl ⟨_, e, Finmap.lookup_insert _, hr, he⟩)

omit huid

lemma validateRemoteUid_cases {α : Type*} (rt : ReliableSystemDeliveryRuntime A) (remote : A)
    (claimedUid : ℕ) (next : ℕ → RuntimeCall A α) :
    let call := rt.validateRemoteUid remote claimedUid next
    (call.runtime = rt ∧ call.frames = [] ∧ ∃ e, call.result = .error e) ∨
      (∃ remoteUid reason, call = rt.invalidTransition remote remoteUid reason) ∨
      (rt.associations.uidForAddress remote = some claimedUid ∧ call = next claimedUid) := by
  unfold validateRemoteUid
  cases rt.associations.uidForAddress remote with
  | none => exact .inl ⟨rfl, rfl, _, rfl⟩
  | some activeUid =>
    dsimp only
    by_cases h : claimedUid ≠ activeUid
    · rw [if_pos h]
      exact .inr (.inl ⟨_, _, rfl⟩)
    · rw [if_neg h]
      rw [not_not] at h
      subst h
      exact .inr (.inr ⟨rfl, rfl⟩)

omit [ToString A] in
lemma invalidTransition_spec {α : Type*} (rt : ReliableSystemDeliveryRuntime A) (remote : A)
    (remoteUid : ℕ) (reason : String) :
    let call : RuntimeCall A α := rt.invalidTransition remote remoteUid reason
    rt.Touches call.runtime call.frames remote ∧ call.runtime.receivers = rt.receivers ∧
      call.frames = [] ∧ (∃ e, call.result = .error e) ∧
      call.runtime.senders.lookup remote = none :=
  ⟨Touches.refl.failAssociation remoteUid reason, rfl, rfl, ⟨_, rfl⟩, lookup_failAssociation _ _ _ _⟩

lemma reply_cases (remote : A) (kind : String) (fromUid : ℕ)
    (apply : ReliableSystemSender A → Except (RemoteError A) (ReliableSystemSender A × ℕ)) :
    let call := rt.validateRemoteUid remote fromUid (rt.applyReply now remote kind apply)
    (rt.Touches call.runtime call.frames remote ∧ call.runtime.receivers = rt.receivers ∧
        call.frames = []) ∧
      (((∃ e, call.result = .error e) ∧
          (call.runtime.senders.lookup remote = rt.senders.lookup remote ∨
            call.runtime.senders.lookup remote = none)) ∨
        ∃ state s' n, rt.senders.lookup remote = some state ∧ apply state.sender = .ok (s', n) ∧
          call.runtime.senders.lookup remote = some ⟨s', now⟩ ∧ call.result = .ok n) := by
  have hself : rt.Touches rt [] remote := .refl
  rcases rt.validateRemoteUid_cases remote fromUid (rt.applyReply now remote kind apply) with
    ⟨h1, h2, h3⟩ | ⟨remoteUid, reason, h⟩ | ⟨-, h⟩
  · refine ⟨⟨?_, by rw [h1], h2⟩, .inl ⟨h3, .inl (by rw [h1])⟩⟩
    rw [h1, h2]
    exact hself
  · rw [h]
    obtain ⟨h1, h2, h3, h4, h5⟩ := rt.invalidTransition_spec remote remoteUid reason
    exact ⟨⟨h1, h2, h3⟩, .inl ⟨h4, .inr h5⟩⟩
  · rw [h, applyReply]
    cases hl : rt.senders.lookup remote with
    | none => exact ⟨⟨hself, rfl, rfl⟩, .inl ⟨⟨_, rfl⟩, .inl hl⟩⟩
    | some state =>
      dsimp only
      cases ha : apply state.sender with
      | error e =>
        obtain ⟨h1, h2, h3, h4, h5⟩ := rt.invalidTransition_spec remote fromUid e.message
        exact ⟨⟨h1, h2, h3⟩, .inl ⟨h4, .inr h5⟩⟩
      | ok r =>
        exact ⟨⟨hself.insertSender _, rfl, rfl⟩, .inr ⟨state, r.1, r.2, rfl, ha,
          Finmap.lookup_insert _, rfl⟩⟩

def baseReceiver (remote : A) (u : ℕ) : ReliableSystemReceiver :=
  (rt.receivers.lookup remote).getD (.new rt.localUid u)

include huid

lemma receiveReliable_cases (reliable : ReliableSystemEnvelope A)
    (hreceiver : ∀ r, rt.receivers.lookup remote = some r → r.remoteUid = u) :
    let call := rt.receiveReliable remote reliable
    let r := rt.baseReceiver remote u
    rt.Touches call.runtime call.frames remote ∧
      (call.runtime.senders.lookup remote = rt.senders.lookup remote ∨
        call.runtime.senders.lookup remote = none) ∧
      (((∃ e, call.result = .error e) ∧ call.frames = [] ∧
          (call.runtime.receivers.lookup remote = rt.receivers.lookup remote ∨
            call.runtime.receivers.lookup remote = some r)) ∨
        (call.result = .ok (some ⟨remote, reliable, r.localUid, r.remoteUid, reliable.sequenceNr⟩) ∧
          call.frames = [] ∧ reliable.sequenceNr = r.nextExpectedSequenceNr ∧
          call.runtime.receivers.lookup remote =
            some { r with nextExpectedSequenceNr := r.nextExpectedSequenceNr + 1 }) ∨
        (call.result = .ok none ∧ call.runtime.receivers.lookup remote = some r ∧
          ∃ f, call.frames = [(remote, f)] ∧ f.replyNr = some (r.nextExpectedSequenceNr - 1))) := by
  have hself : rt.Touches rt [] remote := .refl
  unfold receiveReliable
  rcases rt.validateRemoteUid_cases remote reliable.fromUid (rt.classify remote reliable) with
    ⟨h1, h2, h3⟩ | ⟨remoteUid, reason, h⟩ | ⟨hu, h⟩
  · refine ⟨?_, .inl (by rw [h1]), .inl ⟨h3, h2, .inl (by rw [h1])⟩⟩
    rw [h1, h2]
    exact hself
  · rw [h]
    obtain ⟨h1, h2, h3, h4, h5⟩ := rt.invalidTransition_spec remote remoteUid reason
    exact ⟨h1, .inr h5, .inl ⟨h4, h3, .inl (by rw [h2])⟩⟩
  have hstate : rt.receiverState remote reliable.fromUid = rt.baseReceiver remote u := by
    obtain rfl := huid _ hu
    refine if_neg (not_not.mpr ?_)
    cases hl : rt.receivers.lookup remote with
    | none => rfl
    | some r => exact hreceiver r hl
  rw [h, classify, hstate]
  by_cases hto : reliable.toUid ≠ rt.localUid
  · rw [if_pos hto]
    obtain ⟨h1, h2, h3, h4, h5⟩ := rt.invalidTransition_spec remote reliable.fromUid
      (s!"reliable envelope target UID {reliable.toUid} " ++
        s!"does not match local UID {rt.localUid}")
    exact ⟨h1, .inr h5, .inl ⟨h4, h3, .inl (by rw [h2])⟩⟩
  rw [if_neg hto]
  dsimp only
  have hlook : ∀ r : ReliableSystemReceiver, (rt.receivers.insert remote r).lookup remote = some r :=
    fun r => Finmap.lookup_insert _
  cases hrec : (rt.baseReceiver remote u).receive reliable with
  | error e =>
    have ht := (hself.insertReceiver (rt.baseReceiver remote u)).failAssociation reliable.fromUid
      e.message
    exact ⟨ht, .inr (lookup_failAssociation _ _ _ _), .inl ⟨⟨_, rfl⟩, rfl, .inr (hlook _)⟩⟩
  | ok x =>
    obtain ⟨r', outcome⟩ := x
    have ht := hself.insertReceiver r'
    rcases ReliableSystemReceiver.receive_eq_ok hrec with ⟨hseq, rfl, rfl⟩ | ⟨rfl, rfl | rfl⟩
    · refine ⟨ht, .inl rfl, .inr (.inl ⟨?_, rfl, hseq, hlook _⟩)⟩
      rw [hseq]
      rfl
    all_goals
      refine ⟨ht.send fun f hf => ?_, .inl rfl, .inr (.inr ⟨rfl, hlook _, _, rfl, rfl⟩)⟩
      obtain rfl := mem_singleton.mp hf
      rfl

omit huid
omit [ToString A] in
lemma retryOne_cases (remote : A) (accepted : ℕ) :
    let call := rt.retryOne now remote accepted
    (rt.Touches call.runtime call.frames remote ∧ call.runtime.receivers = rt.receivers) ∧
      (call.runtime.senders.lookup remote = rt.senders.lookup remote ∨
        call.runtime.senders.lookup remote = none) ∧
      ∀ f ∈ call.frames, ∃ state e, rt.senders.lookup remote = some state ∧
        e ∈ state.sender.unacknowledged ∧ f = (remote, .envelope e) := by
  have hself : rt.Touches rt [] remote := .refl
  have hnil : ∀ f ∈ ([] : List (A × ReliableFrame A)), ∃ state e,
      rt.senders.lookup remote = some state ∧ e ∈ state.sender.unacknowledged ∧
        f = (remote, .envelope e) := fun f hf => absurd hf not_mem_nil
  unfold retryOne
  cases hl : rt.senders.lookup remote with
  | none => exact ⟨⟨hself, rfl⟩, .inl hl, fun f hf => absurd hf not_mem_nil⟩
  | some state =>
    rw [hl] at hnil
    rw [Option.map_some]
    unfold tickPlan
    split_ifs
    · exact ⟨⟨hself, rfl⟩, .inl hl, hnil⟩
    · exact ⟨⟨hself.failAssociation _ _, rfl⟩, .inr (lookup_failAssociation _ _ _ _), hnil⟩
    · have hframes : ∀ f ∈ ((state.sender.retryBatch.take accepted).map
          (ReliableFrame.envelope)).map (remote, ·), ∃ state' e,
            some state = some state' ∧ e ∈ state'.sender.unacknowledged ∧
              f = (remote, .envelope e) := by
        intro f hf
        obtain ⟨g, hg, rfl⟩ := mem_map.mp hf
        obtain ⟨e, he, rfl⟩ := mem_map.mp hg
        exact ⟨state, e, rfl, mem_of_mem_take he, rfl⟩
      have ht := hself.send fun f hf => by
        obtain ⟨-, e, -, -, rfl⟩ := hframes f hf
        rfl
      dsimp only
      split_ifs
      · exact ⟨⟨ht.failAssociation _ _, rfl⟩, .inr (lookup_failAssociation _ _ _ _), hframes⟩
      · exact ⟨⟨ht, rfl⟩, .inl hl, hframes⟩

end

end ReliableSystemDeliveryRuntime

end Kairo.Remote
