import Mathlib.Tactic.Ring

/-!
# Remote stream framing

A remote stream is a header, written once, followed by length-prefixed frames.  The encoder attaches
the header to its first frame; the decoder takes arbitrary chunks and returns the frames that are
complete.  `decodeStream_encoded` is the round trip.
-/

namespace Kairo.Remote

open List

abbrev Bytes := List UInt8

inductive StreamError
  | invalidFrame (message : String)
  deriving DecidableEq

inductive RemoteStreamId
  | control
  | ordinary
  | large
  deriving DecidableEq

namespace RemoteStreamId

def asU8 : RemoteStreamId → UInt8
  | control => 1
  | ordinary => 2
  | large => 3

def tryFromU8 (value : UInt8) : Except StreamError RemoteStreamId :=
  if value = 1 then .ok control
  else if value = 2 then .ok ordinary
  else if value = 3 then .ok large
  else .error (.invalidFrame ("unknown remote stream id " ++ toString value.toNat))

end RemoteStreamId

/-- The text `KAIR`. -/
def remoteStreamMagic : Bytes := [0x4b, 0x41, 0x49, 0x52]

def remoteStreamHeaderLen : ℕ := 5

def remoteStreamFrameHeaderLen : ℕ := 4

def defaultMaxFrameLen : ℕ := 16 * 1024 * 1024

/-! ## Headers and frames -/

def encodeRemoteStreamHeader (id : RemoteStreamId) : Bytes := remoteStreamMagic ++ [id.asU8]

def decodeRemoteStreamHeader (bytes : Bytes) : Except StreamError RemoteStreamId :=
  if bytes.length < remoteStreamHeaderLen then
    .error (.invalidFrame "truncated remote stream header")
  else if bytes.take 4 ≠ remoteStreamMagic then .error (.invalidFrame "invalid remote stream magic")
  else RemoteStreamId.tryFromU8 (bytes.getD 4 0)

lemma length_encodeRemoteStreamHeader (id : RemoteStreamId) :
    (encodeRemoteStreamHeader id).length = remoteStreamHeaderLen := rfl

lemma decodeRemoteStreamHeader_encode (id : RemoteStreamId) :
    decodeRemoteStreamHeader (encodeRemoteStreamHeader id) = .ok id := by
  cases id <;> rfl

/-- The big-endian bytes of a 32-bit number. -/
def toBeBytes (n : ℕ) : Bytes :=
  [UInt8.ofNat (n / 2 ^ 24), UInt8.ofNat (n / 2 ^ 16), UInt8.ofNat (n / 2 ^ 8), UInt8.ofNat n]

def encodeRemoteStreamFrame (payload : Bytes) : Except StreamError Bytes :=
  if payload.length < 2 ^ 32 then .ok (toBeBytes payload.length ++ payload)
  else .error (.invalidFrame "remote stream frame exceeds u32 length")

def frameLen (bytes : Bytes) : ℕ := (bytes.take 4).foldl (fun n b => n * 256 + b.toNat) 0

lemma frameLen_append (n : ℕ) (h : n < 2 ^ 32) (rest : Bytes) :
    frameLen (toBeBytes n ++ rest) = n := by
  simp only [frameLen, toBeBytes, cons_append, nil_append, take_succ_cons,
    take_zero, foldl_cons, foldl_nil, UInt8.toNat_ofNat']
  omega

/-! ## The encoder -/

structure RemoteStreamEncoder where
  streamId : RemoteStreamId
  headerWritten : Bool
  deriving DecidableEq

namespace RemoteStreamEncoder

def new (id : RemoteStreamId) : RemoteStreamEncoder := ⟨id, false⟩

/-- Encodes one frame, with the stream header on the first call, also when that call fails. -/
def encodeFrame (e : RemoteStreamEncoder) (payload : Bytes) :
    RemoteStreamEncoder × Except StreamError Bytes :=
  let header := if e.headerWritten then [] else encodeRemoteStreamHeader e.streamId
  ({ e with headerWritten := true }, (encodeRemoteStreamFrame payload).map (header ++ ·))

end RemoteStreamEncoder

/-! ## The decoder -/

structure RemoteStreamFrame where
  streamId : RemoteStreamId
  payload : Bytes
  deriving DecidableEq

structure RemoteStreamDecoder where
  maxFrameLen : ℕ
  streamId : Option RemoteStreamId
  buffer : Bytes
  deriving DecidableEq

/-- Takes complete frames off the front of a buffer. -/
def decodeFrames (maxFrameLen : ℕ) (id : RemoteStreamId) (buffer : Bytes) :
    Except StreamError (List RemoteStreamFrame × Bytes) :=
  if buffer.length < remoteStreamFrameHeaderLen then .ok ([], buffer)
  else
    let len := frameLen buffer
    if maxFrameLen < len then
      .error (.invalidFrame ("remote stream frame length " ++ toString len ++ " exceeds max " ++
        toString maxFrameLen))
    else if buffer.length < remoteStreamFrameHeaderLen + len then .ok ([], buffer)
    else
      match decodeFrames maxFrameLen id (buffer.drop (remoteStreamFrameHeaderLen + len)) with
      | .ok (frames, rest) =>
        .ok (⟨id, (buffer.drop remoteStreamFrameHeaderLen).take len⟩ :: frames, rest)
      | .error e => .error e
termination_by buffer.length
decreasing_by
  simp only [remoteStreamFrameHeaderLen, List.length_drop] at *
  omega

namespace RemoteStreamDecoder

def withMaxFrameLen (maxFrameLen : ℕ) : RemoteStreamDecoder := ⟨maxFrameLen, none, []⟩

def new : RemoteStreamDecoder := withMaxFrameLen defaultMaxFrameLen

variable (d : RemoteStreamDecoder)

def decodeAvailable : Except StreamError (RemoteStreamDecoder × List RemoteStreamFrame) :=
  let afterHeader (id : RemoteStreamId) (buffer : Bytes) :=
    match decodeFrames d.maxFrameLen id buffer with
    | .ok (frames, rest) => .ok ({ d with streamId := some id, buffer := rest }, frames)
    | .error e => .error e
  match d.streamId with
  | some id => afterHeader id d.buffer
  | none =>
    if d.buffer.length < remoteStreamHeaderLen then .ok (d, [])
    else
      match decodeRemoteStreamHeader (d.buffer.take remoteStreamHeaderLen) with
      | .ok id => afterHeader id (d.buffer.drop remoteStreamHeaderLen)
      | .error e => .error e

def push (chunk : Bytes) : Except StreamError (RemoteStreamDecoder × List RemoteStreamFrame) :=
  { d with buffer := d.buffer ++ chunk }.decodeAvailable

def finish : Except StreamError Unit :=
  if d.buffer.isEmpty then .ok ()
  else if d.streamId.isNone ∧ d.buffer.length < remoteStreamHeaderLen then
    .error (.invalidFrame "truncated remote stream header")
  else .error (.invalidFrame "truncated remote stream frame")

end RemoteStreamDecoder

def decodeStream (maxFrameLen : ℕ) (bytes : Bytes) : Except StreamError (List Bytes) := do
  let (d, frames) ← (RemoteStreamDecoder.withMaxFrameLen maxFrameLen).push bytes
  d.finish
  pure (frames.map (·.payload))

/-! ## Round trip -/

def frameBytes (payload : Bytes) : Bytes := toBeBytes payload.length ++ payload

variable {id : RemoteStreamId} {maxFrameLen : ℕ} {payloads : List Bytes}

lemma decodeFrames_cons {payload rest : Bytes}
    (hlen : payload.length < 2 ^ 32) (hmax : payload.length ≤ maxFrameLen) :
    decodeFrames maxFrameLen id (frameBytes payload ++ rest) =
      match decodeFrames maxFrameLen id rest with
      | .ok (frames, left) => .ok (⟨id, payload⟩ :: frames, left)
      | .error e => .error e := by
  have hf : frameLen (frameBytes payload ++ rest) = payload.length := by
    rw [frameBytes, append_assoc]
    exact frameLen_append _ hlen _
  have hl : (frameBytes payload ++ rest).length = 4 + payload.length + rest.length := by
    simp [frameBytes, toBeBytes]
    omega
  have hdrop : (frameBytes payload ++ rest).drop (4 + payload.length) = rest := by
    rw [show 4 + payload.length = (frameBytes payload).length by simp [frameBytes, toBeBytes]; omega]
    exact drop_left
  have htake : ((frameBytes payload ++ rest).drop 4).take payload.length = payload := by
    rw [frameBytes, append_assoc, show 4 = (toBeBytes payload.length).length from rfl,
      drop_left, take_left]
  rw [decodeFrames]
  rw [hf, remoteStreamFrameHeaderLen, if_neg (by omega), if_neg (by omega), if_neg (by omega), hdrop,
    htake]

lemma decodeFrames_frames (h : ∀ p ∈ payloads, p.length < 2 ^ 32 ∧ p.length ≤ maxFrameLen) :
    decodeFrames maxFrameLen id (payloads.flatMap frameBytes) =
      .ok (payloads.map (⟨id, ·⟩), []) := by
  induction payloads with
  | nil =>
    rw [flatMap_nil, decodeFrames]
    rfl
  | cons p ps ih =>
    obtain ⟨hlen, hmax⟩ := h p (by simp)
    rw [flatMap_cons, decodeFrames_cons hlen hmax, ih fun q hq => h q (mem_cons_of_mem _ hq)]
    rfl

lemma RemoteStreamDecoder.decodeAvailable_encoded
    (h : ∀ p ∈ payloads, p.length < 2 ^ 32 ∧ p.length ≤ maxFrameLen) :
    decodeAvailable ⟨maxFrameLen, none, encodeRemoteStreamHeader id ++ payloads.flatMap frameBytes⟩ =
      .ok (⟨maxFrameLen, some id, []⟩, payloads.map (⟨id, ·⟩)) := by
  have hlen := length_encodeRemoteStreamHeader id
  unfold decodeAvailable
  refine (if_neg ?_).trans ?_
  · rw [length_append, hlen]
    omega
  · rw [take_left' hlen, drop_left' hlen, decodeRemoteStreamHeader_encode]
    dsimp only
    rw [decodeFrames_frames h]

/-- **Round trip**: the header and the frames of some payloads decode to these payloads. -/
theorem decodeStream_encoded (h : ∀ p ∈ payloads, p.length < 2 ^ 32 ∧ p.length ≤ maxFrameLen) :
    decodeStream maxFrameLen (encodeRemoteStreamHeader id ++ payloads.flatMap frameBytes) =
      .ok payloads := by
  have hpush : (RemoteStreamDecoder.withMaxFrameLen maxFrameLen).push
      (encodeRemoteStreamHeader id ++ payloads.flatMap frameBytes) =
      .ok (⟨maxFrameLen, some id, []⟩, payloads.map (⟨id, ·⟩)) :=
    RemoteStreamDecoder.decodeAvailable_encoded h
  unfold decodeStream
  rw [hpush]
  simp [bind, Except.bind, RemoteStreamDecoder.finish, pure, Except.pure, Function.comp_def]

end Kairo.Remote
