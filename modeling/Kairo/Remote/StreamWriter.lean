import Kairo.Lib.Positions
import Kairo.Lib.Machine
import Kairo.Remote.StreamFraming

/-!
# Concurrent senders on one stream

The clones of a `RemoteStreamWriter` share one encoder.  A send encodes its payload under the
encoder's lock and hands the chunk to the sink afterwards, without the lock, so that chunks of other
sends may overtake it, and the sink may refuse it.  What the sink has accepted decodes to the payloads
of the successful sends as long as the sink gets the chunk with the stream header first.
-/

namespace Kairo.Remote

open Kairo.Lib List

/-- A send between its two steps. -/
structure EncodedSend where
  payload : Bytes
  bytes : Bytes
  /-- The encoder attached the stream header. -/
  withHeader : Bool
  deriving DecidableEq

structure StreamWriterState where
  encoder : RemoteStreamEncoder
  /-- Sends that have encoded and not yet reached the sink. -/
  sending : List EncodedSend
  /-- The chunks that the sink accepted, in its order. -/
  accepted : List Bytes
  /-- The payloads whose send returned `Ok`, in the order of the sink. -/
  sent : List Bytes
  deriving DecidableEq

namespace StreamWriter

inductive Action
  | encode (payload : Bytes)
  /-- An encoded chunk reaches the sink, which accepts or refuses it. -/
  | sendBytes (i : ℕ) (accept : Bool)
  deriving DecidableEq

def start (id : RemoteStreamId) : StreamWriterState := ⟨.new id, [], [], []⟩

def step (w : StreamWriterState) : Action → Option StreamWriterState
  | .encode payload =>
    match w.encoder.encodeFrame payload with
    | (encoder, .ok bytes) =>
      some { w with encoder, sending := w.sending ++ [⟨payload, bytes, !w.encoder.headerWritten⟩] }
    | (encoder, .error _) => some { w with encoder }
  | .sendBytes i accept => (w.sending[i]?).map fun s =>
    if accept then
      { w with
        sending := w.sending.eraseIdx i
        accepted := w.accepted ++ [s.bytes]
        sent := w.sent ++ [s.payload] }
    else { w with sending := w.sending.eraseIdx i }

def machine (id : RemoteStreamId) : Machine StreamWriterState Action where
  init w := w = start id
  step := step

/-- The first chunk that the sink accepts has the stream header, and the frames that it accepts are
within the limit of the decoder. -/
def Careful (maxFrameLen : ℕ) (w : StreamWriterState) : Action → Prop
  | .sendBytes i true => ∀ s ∈ w.sending[i]?,
      (w.accepted = [] → s.withHeader = true) ∧ s.payload.length ≤ maxFrameLen
  | _ => True

instance (maxFrameLen : ℕ) (w : StreamWriterState) : (a : Action) → Decidable (Careful maxFrameLen w a)
  | .sendBytes i true => inferInstanceAs (Decidable (∀ s ∈ w.sending[i]?,
      (w.accepted = [] → s.withHeader = true) ∧ s.payload.length ≤ maxFrameLen))
  | .sendBytes _ false | .encode _ => isTrue trivial

/-! ## Invariant -/

def chunk (id : RemoteStreamId) (withHeader : Bool) (payload : Bytes) : Bytes :=
  (if withHeader then encodeRemoteStreamHeader id else []) ++ frameBytes payload

structure Inv (maxFrameLen : ℕ) (id : RemoteStreamId) (w : StreamWriterState) : Prop where
  streamId : w.encoder.streamId = id
  /-- Nothing is encoded before the header. -/
  fresh : w.encoder.headerWritten = false → w.sending = [] ∧ w.accepted = []
  encoded : ∀ s ∈ w.sending, s.bytes = chunk id s.withHeader s.payload ∧ s.payload.length < 2 ^ 32
  /-- The header exists once: in a chunk on its way or in the sink. -/
  once : w.sending.countP (·.withHeader) + (if w.accepted = [] then 0 else 1) ≤ 1
  stream : w.accepted.flatten =
    if w.accepted = [] then [] else encodeRemoteStreamHeader id ++ w.sent.flatMap frameBytes
  none_sent : w.accepted = [] → w.sent = []
  bounded : ∀ p ∈ w.sent, p.length < 2 ^ 32 ∧ p.length ≤ maxFrameLen

variable {maxFrameLen : ℕ} {id : RemoteStreamId} {w : StreamWriterState}

lemma encodeFrame_eq (e : RemoteStreamEncoder) (payload : Bytes) :
    e.encodeFrame payload = ({ e with headerWritten := true },
      if payload.length < 2 ^ 32 then .ok (chunk e.streamId (!e.headerWritten) payload)
      else .error (.invalidFrame "remote stream frame exceeds u32 length")) := by
  unfold RemoteStreamEncoder.encodeFrame encodeRemoteStreamFrame chunk frameBytes
  by_cases hp : payload.length < 2 ^ 32
  · rw [if_pos hp, if_pos hp]
    cases e.headerWritten <;> rfl
  · rw [if_neg hp, if_neg hp]
    rfl

lemma Inv.start : Inv maxFrameLen id (start id) where
  streamId := rfl
  fresh _ := ⟨rfl, rfl⟩
  encoded := by rintro s ⟨⟩
  once := by simp [StreamWriter.start]
  stream := rfl
  none_sent _ := rfl
  bounded := by rintro p ⟨⟩

section

variable (h : Inv maxFrameLen id w) {t : StreamWriterState} {s : EncodedSend}

include h

lemma Inv.encode {payload : Bytes} (ht : step w (.encode payload) = some t) :
    Inv maxFrameLen id t := by
  rw [step, encodeFrame_eq, h.streamId] at ht
  by_cases hp : payload.length < 2 ^ 32
  · rw [if_pos hp] at ht
    cases ht
    refine { h with streamId := rfl, fresh := ?_, encoded := ?_, once := ?_ }
    · rintro ⟨⟩
    · exact forall_mem_append.mpr ⟨h.encoded, forall_mem_singleton.mpr ⟨rfl, hp⟩⟩
    · cases hw : w.encoder.headerWritten with
      | true => simpa [hw] using h.once
      | false =>
        -- the first encode: no other chunk is under way
        obtain ⟨hs, ha⟩ := h.fresh hw
        simp [hs, ha]
  · rw [if_neg hp] at ht
    cases ht
    exact { h with streamId := rfl, fresh := by rintro ⟨⟩ }

lemma Inv.refuse {i : ℕ} (hs : w.sending[i]? = some s) :
    Inv maxFrameLen id { w with sending := w.sending.eraseIdx i } := by
  refine { h with streamId := h.streamId, fresh := ?_, encoded := ?_, once := ?_ }
  · intro hw
    rw [(h.fresh hw).1] at hs
    cases hs
  · exact fun x hx => h.encoded x (mem_of_mem_eraseIdx hx)
  · have hc := countP_eraseIdx (·.withHeader) hs
    have hone := h.once
    dsimp only
    omega

lemma Inv.accept {i : ℕ} (hs : w.sending[i]? = some s)
    (hheader : w.accepted = [] → s.withHeader = true) (hmax : s.payload.length ≤ maxFrameLen) :
    Inv maxFrameLen id { w with
      sending := w.sending.eraseIdx i
      accepted := w.accepted ++ [s.bytes]
      sent := w.sent ++ [s.payload] } := by
  have hmem : s ∈ w.sending := mem_of_getElem? hs
  obtain ⟨hbytes, hlen⟩ := h.encoded s hmem
  have hc := countP_eraseIdx (·.withHeader) hs
  have hone := h.once
  have hne : w.accepted ++ [s.bytes] ≠ [] := by simp
  refine { streamId := h.streamId, fresh := ?_, encoded := ?_, once := ?_, stream := ?_,
           none_sent := fun hnil => absurd hnil hne, bounded := ?_ }
  · intro hw
    rw [(h.fresh hw).1] at hmem
    cases hmem
  · exact fun x hx => h.encoded x (mem_of_mem_eraseIdx hx)
  · dsimp only
    rw [if_neg hne]
    by_cases hnil : w.accepted = []
    · rw [if_pos (hheader hnil)] at hc
      omega
    · rw [if_neg hnil] at hone
      omega
  · rw [if_neg hne, flatten_append, flatten_singleton, h.stream, hbytes,
      flatMap_append, flatMap_singleton]
    by_cases hnil : w.accepted = []
    · rw [if_pos hnil, hheader hnil, h.none_sent hnil]
      rfl
    · -- the header is in the sink, so that no chunk under way has one
      have hno : s.withHeader = false := by
        by_contra hw
        rw [Bool.not_eq_false] at hw
        rw [if_neg hnil] at hone
        rw [if_pos hw] at hc
        omega
      rw [if_neg hnil, hno, chunk, append_assoc]
      rfl
  · exact forall_mem_append.mpr ⟨h.bounded, forall_mem_singleton.mpr ⟨hlen, hmax⟩⟩

lemma Inv.step {a : Action} (hok : Careful maxFrameLen w a) (ht : step w a = some t) :
    Inv maxFrameLen id t := by
  cases a with
  | encode payload => exact h.encode ht
  | sendBytes i accept =>
    obtain ⟨s, hs, rfl⟩ := Option.map_eq_some_iff.mp ht
    cases accept with
    | false => exact h.refuse hs
    | true =>
      obtain ⟨hheader, hmax⟩ := hok s hs
      exact h.accept hs hheader hmax

lemma Inv.decode : decodeStream maxFrameLen w.accepted.flatten = .ok w.sent := by
  rw [h.stream]
  by_cases hnil : w.accepted = []
  · rw [if_pos hnil, h.none_sent hnil]
    rfl
  · rw [if_neg hnil]
    exact decodeStream_encoded h.bounded

end

/-- **Decodable streams**: when the chunk with the header reaches the sink first, what the sink has
accepted decodes to the payloads of the successful sends, in its order. -/
theorem decode_accepted (hr : (machine id).Reach (Careful maxFrameLen) w) :
    decodeStream maxFrameLen w.accepted.flatten = .ok w.sent := by
  have hinv : Inv maxFrameLen id w := by
    refine hr.invariant ?_ fun s a t hs hok ht => hs.step hok ht
    rintro s rfl
    exact .start
  exact hinv.decode

/-- Two threads: the second one's chunk is refused, then the first one sends again. -/
def refusedThenSent : List Action :=
  [.encode [1], .encode [2, 3], .sendBytes 0 true, .sendBytes 0 false, .encode [4],
    .sendBytes 0 true]

theorem decode_accepted_refused : ∃ w : StreamWriterState,
    decodeStream defaultMaxFrameLen w.accepted.flatten = .ok w.sent ∧ w.sent = [[1], [4]] := by
  obtain ⟨w, hr, hw⟩ := Machine.Reach.exists_of_exec (M := machine .control)
    (c := Careful defaultMaxFrameLen) (P := fun w => w.sent = [[1], [4]]) refusedThenSent
    rfl (by decide +kernel)
  exact ⟨w, decode_accepted hr, hw⟩

/-- **An overtaken header**: two threads encode, and the chunk without the header reaches the sink
first. -/
theorem overtaken_header : ∃ w : StreamWriterState, (machine .control).Reachable w ∧
    w.sent = [[2], [1]] ∧
    decodeStream defaultMaxFrameLen w.accepted.flatten =
      .error (.invalidFrame "invalid remote stream magic") := by
  obtain ⟨w, hr, hsent, hbytes⟩ := Machine.Reach.exists_of_exec (M := machine .control)
    (c := fun _ _ => True) (P := fun w => w.sent = [[2], [1]] ∧
      w.accepted.flatten = frameBytes [2] ++ encodeRemoteStreamHeader .control ++ frameBytes [1])
    [.encode [1], .encode [2], .sendBytes 1 true, .sendBytes 0 true] rfl (by decide +kernel)
  refine ⟨w, hr, hsent, ?_⟩
  rw [hbytes]
  rfl

end StreamWriter

end Kairo.Remote
