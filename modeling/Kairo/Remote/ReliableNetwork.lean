import Kairo.Lib.Machine
import Kairo.Remote.ReliableRuntime
import Kairo.Remote.ReliableLink

/-!
# Runtimes over a lossy channel

Any number of runtimes, one per address.  A frame that was sent once may be received at any later
time, in any order and any number of times.  Calls of a runtime are single steps, except that the end
of a handler call is a step of its own.  The world records which envelopes the handlers have accepted,
which ones senders have dropped because of a reply, and where sender state was removed.
-/

namespace Kairo.Remote

open Kairo.Lib

/-- The incarnation of the system at each address, and the configuration of its runtime. -/
structure ReliableNetwork (A : Type*) where
  uid : A → ℕ
  manifests : A → List String
  settings : A → ReliableSystemDeliverySettings

structure ReliableWorld (A : Type*) where
  runtimes : A → ReliableSystemDeliveryRuntime A
  /-- Frames with their source and target. -/
  channel : List (A × A × ReliableFrame A)
  /-- Deliveries in progress, with the receiving address. -/
  delivering : List (A × Delivery A)
  /-- Envelopes that a handler has accepted, with source and target. -/
  handled : List (A × A × ReliableSystemEnvelope A)
  /-- Envelopes dropped because of an ack or nack, with source and target. -/
  dropped : List (A × A × ReliableSystemEnvelope A)
  /-- Source and target of sender state that was removed. -/
  failed : Finset (A × A)

namespace ReliableNetwork

variable {A : Type*} [DecidableEq A] [ToString A] (N : ReliableNetwork A)

inductive Action (A : Type*)
  | connect (p q : A)
  | handshake (p q : A)
  | close (p q : A) (reason : String)
  | quarantine (p q : A) (reason : String)
  | send (p : A) (now : ℕ) (raw : Except (RemoteError A) Unit) (envelope : RemoteEnvelope A)
  | receive (p q : A) (now : ℕ) (streamId : RemoteStreamId) (frame : ReliableFrame A)
  | finish (i : ℕ) (ok : Bool)
  | retry (p q : A) (now accepted : ℕ)

def start : ReliableWorld A where
  runtimes p := .new p (N.uid p) (N.manifests p) (N.settings p)
  channel := []
  delivering := []
  handled := []
  dropped := []
  failed := ∅

variable (w : ReliableWorld A)

def withAssociations (p : A) (associations : RemoteAssociationRegistry A) : ReliableWorld A :=
  { w with runtimes := Function.update w.runtimes p { w.runtimes p with associations } }

def install {α : Type*} (w : ReliableWorld A) (p : A) (call : RuntimeCall A α) : ReliableWorld A :=
  { w with
    runtimes := Function.update w.runtimes p call.runtime
    channel := w.channel ++ call.frames.map fun f => (p, f)
    failed := w.failed ∪
      ((w.runtimes p).senders.keys \ call.runtime.senders.keys).image fun q => (p, q) }

/-- A delivery that the classification of a frame starts. -/
def started (q : A) (call : RuntimeCall A (Option (Delivery A))) : List (A × Delivery A) :=
  match call.result with
  | .ok (some d) => [(q, d)]
  | _ => []

def droppedBy (rt : ReliableSystemDeliveryRuntime A) (p q : A) (call : RuntimeCall A ℕ) :
    List (A × A × ReliableSystemEnvelope A) :=
  match call.result, rt.senders.lookup q with
  | .ok removed, some state => (state.sender.unacknowledged.take removed).map fun e => (p, q, e)
  | _, _ => []

def receiveFrame (p q : A) (now : ℕ) : ReliableFrame A → ReliableWorld A
  | .envelope reliable =>
    let call := (w.runtimes p).receiveReliable q reliable
    { install w p call with delivering := w.delivering ++ started p call }
  | .ack ack =>
    let call := (w.runtimes p).receiveAck now q ack
    { install w p call with dropped := w.dropped ++ droppedBy (w.runtimes p) p q call }
  | .nack nack =>
    let call := (w.runtimes p).receiveNack now q nack
    { install w p call with dropped := w.dropped ++ droppedBy (w.runtimes p) p q call }

def step : Action A → Option (ReliableWorld A)
  | .connect p q => some (withAssociations w p ((w.runtimes p).associations.association q))
  | .handshake p q =>
    match (w.runtimes p).associations.completeHandshake q (N.uid q) with
    | .ok associations => some (withAssociations w p associations)
    | .error _ => none
  | .close p q reason =>
    some (withAssociations w p ((w.runtimes p).associations.modify q (·.close reason)))
  | .quarantine p q reason =>
    some (withAssociations w p
      ((w.runtimes p).associations.modify q fun s => .quarantined s.associationUid reason))
  | .send p now raw envelope => some (install w p ((w.runtimes p).sendSelected now raw envelope))
  | .receive p q now streamId frame =>
    if (q, p, frame) ∈ w.channel then
      match ReliableSystemDeliveryRuntime.requireControl streamId frame with
      | .ok () => some (receiveFrame w p q now frame)
      | .error _ => some w
    else none
  | .finish i ok => (w.delivering[i]?).map fun (q, d) =>
      { w with
        delivering := w.delivering.eraseIdx i
        channel := w.channel ++
          (ReliableSystemDeliveryRuntime.finishDelivery d ok).map fun f => (q, f)
        handled := if ok then w.handled ++ [(d.remote, q, d.reliable)] else w.handled }
  | .retry p q now accepted => some (install w p ((w.runtimes p).retryOne now q accepted))

def machine : Machine (ReliableWorld A) (Action A) where
  init w := w = N.start
  step := N.step

/-- The handler succeeds, an envelope is classified while no delivery of its association is in
progress, and nothing is sent to an association whose sender state was removed. -/
def Careful : Action A → Prop
  | .send p _ _ envelope => (p, envelope.recipient) ∉ w.failed
  | .receive p q _ _ (.envelope _) => ∀ d ∈ w.delivering, d.1 = p → d.2.remote ≠ q
  | .finish _ ok => ok = true
  | _ => True

instance (w : ReliableWorld A) : (a : Action A) → Decidable (Careful w a)
  | .send p _ _ envelope => inferInstanceAs (Decidable ((p, envelope.recipient) ∉ w.failed))
  | .receive p q _ _ (.envelope _) =>
    inferInstanceAs (Decidable (∀ d ∈ w.delivering, d.1 = p → d.2.remote ≠ q))
  | .finish _ ok => inferInstanceAs (Decidable (ok = true))
  | .connect .. | .handshake .. | .close .. | .quarantine .. | .receive _ _ _ _ (.ack _)
  | .receive _ _ _ _ (.nack _) | .retry .. => isTrue trivial

end ReliableNetwork

end Kairo.Remote
