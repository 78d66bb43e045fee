import Kairo.Remote.StreamFraming

/-!
# Framing and packet boundaries

The inbound reader pushes each chunk into the decoder and hands the frames that a push returns to its
handler.  A push that meets an invalid header returns an error instead of the frames it completed
before, so the frames that reach the handler depend on the cuts once an oversized frame header follows
a complete frame, and on nothing else.
-/

namespace Kairo.Remote

open RemoteStreamDecoder List

variable {maxFrameLen n : ℕ} {id : RemoteStreamId} {a b rest : Bytes} {frames : List RemoteStreamFrame}

/-- The inbound reader, with the frames its handler was given. -/
structure StreamFrameInbound where
  decoder : RemoteStreamDecoder
  handled : List RemoteStreamFrame
  deriving DecidableEq

namespace StreamFrameInbound

def withMaxFrameLen (maxFrameLen : ℕ) : StreamFrameInbound := ⟨.withMaxFrameLen maxFrameLen, []⟩

/-- The handler accepts every frame. -/
def pushBytes (s : StreamFrameInbound) (chunk : Bytes) : Except StreamError StreamFrameInbound :=
  match s.decoder.push chunk with
  | .ok (decoder, frames) => .ok ⟨decoder, s.handled ++ frames⟩
  | .error e => .error e

/-- Feeds chunks until the first error: the frames handled, and whether there was an error. -/
def feed (s : StreamFrameInbound) : List Bytes → List RemoteStreamFrame × Bool
  | [] => (s.handled, false)
  | chunk :: chunks =>
    match s.pushBytes chunk with
    | .ok s => s.feed chunks
    | .error _ => (s.handled, true)

end StreamFrameInbound

/-- Complete frames and then a frame header above the limit. -/
inductive Oversized (maxFrameLen : ℕ) : Bytes → Prop
  | header {b : Bytes} : 4 ≤ b.length → maxFrameLen < frameLen b → Oversized maxFrameLen b
  | frame {b : Bytes} : 4 + frameLen b ≤ b.length → frameLen b ≤ maxFrameLen →
    Oversized maxFrameLen (b.drop (4 + frameLen b)) → Oversized maxFrameLen b

/-- After the header of the stream a frame header above the limit follows at least one frame. -/
def OversizedLater (maxFrameLen : ℕ) (bytes : Bytes) : Prop :=
  let d := bytes.drop remoteStreamHeaderLen
  (decodeRemoteStreamHeader (bytes.take remoteStreamHeaderLen)).isOk ∧ 4 + frameLen d ≤ d.length ∧
    frameLen d ≤ maxFrameLen ∧ Oversized maxFrameLen (d.drop (4 + frameLen d))

/-! ## The decoder on a buffer that grows -/

lemma frameLen_append_right (h : 4 ≤ a.length) (b : Bytes) : frameLen (a ++ b) = frameLen a := by
  rw [frameLen, take_append_of_le_length h, frameLen]

lemma decodeFrames_cut (maxFrameLen : ℕ) (id : RemoteStreamId) (a b : Bytes)
    (hmax : ¬ maxFrameLen < frameLen a)
    (hlen : ¬ a.length < 4 + frameLen a) : decodeFrames maxFrameLen id (a ++ b) =
      (decodeFrames maxFrameLen id (a.drop (4 + frameLen a) ++ b)).map fun p =>
        (⟨id, (a.drop 4).take (frameLen a)⟩ :: p.1, p.2) := by
  have hl : frameLen (a ++ b) = frameLen a := frameLen_append_right (by omega) b
  rw [decodeFrames, remoteStreamFrameHeaderLen, if_neg (by rw [length_append]; omega)]
  rw [hl, if_neg hmax, if_neg (by rw [length_append]; omega), drop_append_of_le_length (by omega),
    drop_append_of_le_length (by omega), take_append_of_le_length
    (by rw [length_drop]; omega)]
  cases decodeFrames maxFrameLen id (a.drop (4 + frameLen a) ++ b) <;> rfl

/-- What is decoded from a buffer is decoded from every longer one. -/
lemma decodeFrames_append (maxFrameLen : ℕ) (id : RemoteStreamId) (a b : Bytes) :
    decodeFrames maxFrameLen id (a ++ b) = (decodeFrames maxFrameLen id a).bind fun p =>
      (decodeFrames maxFrameLen id (p.2 ++ b)).map fun q => (p.1 ++ q.1, q.2) := by
  have hsame : ∀ x : Except StreamError (List RemoteStreamFrame × Bytes),
      x = x.map fun q => ([] ++ q.1, q.2) := fun x => by cases x <;> rfl
  fun_induction decodeFrames maxFrameLen id a with
  | case1 a hshort => exact hsame _
  | case2 a hshort len hmax =>
    have hlen : frameLen (a ++ b) = len := frameLen_append_right (Nat.le_of_not_lt hshort) b
    rw [decodeFrames, if_neg (by rw [length_append]; omega)]
    rw [hlen, if_pos hmax]
    rfl
  | case3 a hshort len hmax hpart => exact hsame _
  | case4 a hshort len hmax hpart frames rest hrec ih =>
    rw [hrec] at ih
    refine (decodeFrames_cut _ id _ b hmax hpart).trans ((congrArg _ ih).trans ?_)
    dsimp only [Except.bind]
    cases decodeFrames maxFrameLen id (rest ++ b) <;> rfl
  | case5 a hshort len hmax hpart e hrec ih =>
    rw [hrec] at ih
    exact (decodeFrames_cut _ id _ b hmax hpart).trans (congrArg _ ih)

lemma oversized_iff (maxFrameLen : ℕ) (id : RemoteStreamId) (a : Bytes) :
    Oversized maxFrameLen a ↔ (decodeFrames maxFrameLen id a).isOk = false := by
  constructor
  · intro h
    induction h with
    | header hlen hmax =>
      rw [decodeFrames, remoteStreamFrameHeaderLen, if_neg (Nat.not_lt.mpr hlen)]
      rw [if_pos hmax]
      rfl
    | @frame b hlen hmax _ ih =>
      rw [← append_nil b, decodeFrames_cut _ id _ [] (by omega) (by omega), append_nil]
      cases hd : decodeFrames maxFrameLen id (b.drop (4 + frameLen b)) with
      | ok p => rw [hd] at ih; cases ih
      | error e => rfl
  · intro h
    fun_induction decodeFrames maxFrameLen id a with
    | case1 | case3 => cases h
    | case2 a hshort len hmax => exact .header (Nat.le_of_not_lt hshort) hmax
    | case4 => cases h
    | case5 a hshort len hmax hpart e hrec ih =>
      exact .frame (Nat.le_of_not_lt hpart) (Nat.le_of_not_lt hmax) (ih (by rw [hrec]; rfl))

namespace RemoteStreamDecoder

lemma push_append (d : RemoteStreamDecoder) (a b : Bytes) :
    d.push (a ++ b) = (d.push a).bind fun p => (p.1.push b).map fun q => (q.1, p.2 ++ q.2) := by
  have hid : ∀ x : Except StreamError (RemoteStreamDecoder × List RemoteStreamFrame),
      x = x.map fun q => (q.1, q.2) := fun x => by cases x <;> rfl
  obtain ⟨maxFrameLen, streamId, buffer⟩ := d
  simp only [push, decodeAvailable, ← append_assoc]
  cases streamId with
  | some id =>
    dsimp only
    rw [decodeFrames_append]
    cases decodeFrames maxFrameLen id (buffer ++ a) with
    | error e => rfl
    | ok p =>
      dsimp only [Except.bind]
      cases decodeFrames maxFrameLen id (p.2 ++ b) <;> rfl
  | none =>
    by_cases hshort : (buffer ++ a).length < remoteStreamHeaderLen
    · simp only [if_pos hshort, Except.bind, nil_append]
      exact hid _
    have hlong : ¬ (buffer ++ a ++ b).length < remoteStreamHeaderLen := by
      rw [length_append]
      omega
    simp only [if_neg hshort, if_neg hlong, take_append_of_le_length (Nat.le_of_not_lt hshort),
      drop_append_of_le_length (Nat.le_of_not_lt hshort)]
    cases decodeRemoteStreamHeader ((buffer ++ a).take remoteStreamHeaderLen) with
    | error e => rfl
    | ok id =>
      dsimp only
      rw [decodeFrames_append]
      cases decodeFrames maxFrameLen id ((buffer ++ a).drop remoteStreamHeaderLen) with
      | error e => rfl
      | ok p =>
        dsimp only [Except.bind]
        cases decodeFrames maxFrameLen id (p.2 ++ b) <;> rfl

end RemoteStreamDecoder

/-! ## Chunks -/

namespace StreamFrameInbound

variable {d d' : RemoteStreamDecoder} {handled : List RemoteStreamFrame} {chunks : List Bytes}
  {chunk : Bytes}

lemma feed_cons_ok (h : d.push chunk = .ok (d', frames)) :
    feed ⟨d, handled⟩ (chunk :: chunks) = feed ⟨d', handled ++ frames⟩ chunks := by
  simp [feed, pushBytes, h]

lemma feed_cons_error {e : StreamError} (h : d.push chunk = .error e) :
    feed ⟨d, handled⟩ (chunk :: chunks) = (handled, true) := by
  simp [feed, pushBytes, h]

/-- A stream that decodes gives its frames; from one that does not, the handler has the frames of some
part of it. -/
lemma feed_spec (d : RemoteStreamDecoder) (handled : List RemoteStreamFrame) (chunk : Bytes)
    (chunks : List Bytes) :
    (∀ d' frames, d.push (chunk ++ chunks.flatten) = .ok (d', frames) →
      feed ⟨d, handled⟩ (chunk :: chunks) = (handled ++ frames, false)) ∧
    ∀ e, d.push (chunk ++ chunks.flatten) = .error e →
      ∃ frames, feed ⟨d, handled⟩ (chunk :: chunks) = (handled ++ frames, true) ∧
        (frames ≠ [] → ∃ a b d', chunk ++ chunks.flatten = a ++ b ∧ d.push a = .ok (d', frames)) := by
  induction chunks generalizing d handled chunk with
  | nil =>
    rw [flatten_nil, append_nil]
    refine ⟨fun d' frames h => ?_, fun e h => ⟨[], ?_, fun h0 => absurd rfl h0⟩⟩
    · rw [feed_cons_ok h, feed]
    · rw [feed_cons_error h, append_nil]
  | cons next chunks ih =>
    rw [flatten_cons, push_append]
    cases hp : d.push chunk with
    | error e =>
      refine ⟨fun d' frames h => (by cases h), fun e' h => ⟨[], ?_, fun h0 => absurd rfl h0⟩⟩
      rw [feed_cons_error hp, append_nil]
    | ok p =>
      obtain ⟨d1, frames1⟩ := p
      obtain ⟨ihok, iherror⟩ := ih d1 (handled ++ frames1) next
      rw [feed_cons_ok hp]
      dsimp only [Except.bind]
      cases hq : d1.push (next ++ chunks.flatten) with
      | ok q =>
        refine ⟨fun d' frames h => ?_, fun e h => by cases h⟩
        cases h
        rw [ihok q.1 q.2 hq, append_assoc]
      | error e =>
        refine ⟨fun d' frames h => (by cases h), fun e' h => ?_⟩
        obtain ⟨frames, hfeed, hpart⟩ := iherror e hq
        refine ⟨frames1 ++ frames, by rw [hfeed, append_assoc], fun _ => ?_⟩
        by_cases h0 : frames = []
        · exact ⟨chunk, _, d1, rfl, by rw [hp, h0, append_nil]⟩
        · obtain ⟨a, b, d', hcut, ha⟩ := hpart h0
          refine ⟨chunk ++ a, b, d', by rw [hcut, append_assoc], ?_⟩
          rw [push_append, hp]
          dsimp only [Except.bind]
          rw [ha]
          rfl

lemma push_start (maxFrameLen : ℕ) (a : Bytes) :
    (RemoteStreamDecoder.withMaxFrameLen maxFrameLen).push a =
    if a.length < remoteStreamHeaderLen then .ok (⟨maxFrameLen, none, a⟩, [])
    else (decodeRemoteStreamHeader (a.take remoteStreamHeaderLen)).bind fun id =>
      (decodeFrames maxFrameLen id (a.drop remoteStreamHeaderLen)).map fun p =>
        (⟨maxFrameLen, some id, p.2⟩, p.1) := by
  simp only [push, decodeAvailable, RemoteStreamDecoder.withMaxFrameLen, nil_append]
  refine if_congr .rfl rfl ?_
  cases decodeRemoteStreamHeader (a.take remoteStreamHeaderLen) with
  | error e => rfl
  | ok id =>
    dsimp only [Except.bind]
    cases decodeFrames maxFrameLen id (a.drop remoteStreamHeaderLen) <;> rfl

lemma decodeFrames_first (id : RemoteStreamId) {d : Bytes} (hlen : 4 + frameLen d ≤ d.length)
    (hmax : frameLen d ≤ maxFrameLen) : ∃ frame,
      decodeFrames maxFrameLen id (d.take (4 + frameLen d)) = .ok ([frame], []) := by
  have hlength : (d.take (4 + frameLen d)).length = 4 + frameLen d := length_take_of_le hlen
  have hl : frameLen (d.take (4 + frameLen d)) = frameLen d := by
    conv_rhs => rw [← take_append_drop (4 + frameLen d) d]
    exact (frameLen_append_right (by omega) _).symm
  have hcut := decodeFrames_cut maxFrameLen id (d.take (4 + frameLen d)) [] (by omega) (by omega)
  rw [append_nil, append_nil, hl, drop_of_length_le hlength.le, decodeFrames.eq_1 _ _ []] at hcut
  exact ⟨_, hcut⟩

lemma first_of_decodeFrames (h : decodeFrames maxFrameLen id a = .ok (frames, rest))
    (hne : frames ≠ []) :
    4 + frameLen a ≤ a.length ∧ frameLen a ≤ maxFrameLen := by
  rw [decodeFrames] at h
  dsimp only at h
  split_ifs at h with h1 h2 h3
  · cases h; exact absurd rfl hne
  · cases h; exact absurd rfl hne
  · exact ⟨Nat.le_of_not_lt h3, Nat.le_of_not_lt h2⟩

/-- Frames of a part of a stream that does not decode are followed by an oversized header. -/
lemma oversizedLater_iff (maxFrameLen : ℕ) (bytes : Bytes) : OversizedLater maxFrameLen bytes ↔
    (∃ e, (RemoteStreamDecoder.withMaxFrameLen maxFrameLen).push bytes = .error e) ∧
      ∃ a b d frames, bytes = a ++ b ∧ frames ≠ [] ∧
        (RemoteStreamDecoder.withMaxFrameLen maxFrameLen).push a = .ok (d, frames) := by
  simp only [push_start]
  constructor
  · rintro ⟨hheader, hlen, hmax, hover⟩
    have hlong : ¬ bytes.length < remoteStreamHeaderLen := by
      rw [length_drop] at hlen
      omega
    cases hh : decodeRemoteStreamHeader (bytes.take remoteStreamHeaderLen) with
    | error e => rw [hh] at hheader; cases hheader
    | ok id =>
      have hfail := (oversized_iff maxFrameLen id _).mp (.frame hlen hmax hover)
      generalize hd : bytes.drop remoteStreamHeaderLen = d at *
      obtain ⟨frame, hframe⟩ := decodeFrames_first id hlen hmax
      have hbytes : bytes = (bytes.take remoteStreamHeaderLen ++ d.take (4 + frameLen d)) ++
          d.drop (4 + frameLen d) := by
        rw [append_assoc, take_append_drop, ← hd, take_append_drop]
      have htake : (bytes.take remoteStreamHeaderLen).length = remoteStreamHeaderLen :=
        length_take_of_le (Nat.le_of_not_lt hlong)
      constructor
      · rw [if_neg hlong, Except.bind]
        cases hdecode : decodeFrames maxFrameLen id d with
        | ok p => rw [hdecode] at hfail; cases hfail
        | error e => exact ⟨e, rfl⟩
      · refine ⟨_, _, ⟨maxFrameLen, some id, []⟩, [frame], hbytes, by simp, ?_⟩
        rw [if_neg (by rw [length_append]; omega), take_left' htake, drop_left' htake, hh,
          Except.bind, hframe]
        rfl
  · rintro ⟨⟨e, he⟩, a, b, d, frames, rfl, hne, ha⟩
    split at ha
    · cases ha; exact absurd rfl hne
    next hlen =>
    rw [if_neg (by rw [length_append]; omega), take_append_of_le_length (Nat.le_of_not_lt hlen),
      drop_append_of_le_length (Nat.le_of_not_lt hlen)] at he
    cases hheader : decodeRemoteStreamHeader (a.take remoteStreamHeaderLen) with
    | error e => rw [hheader] at ha; cases ha
    | ok id =>
      rw [hheader] at ha he
      dsimp only [Except.bind] at ha he
      cases hd : decodeFrames maxFrameLen id (a.drop remoteStreamHeaderLen) with
      | error e => rw [hd] at ha; cases ha
      | ok p =>
        rw [hd] at ha
        cases ha
        obtain ⟨hfirst, hmax⟩ := first_of_decodeFrames hd hne
        have hl := frameLen_append_right (a := a.drop remoteStreamHeaderLen) (by omega) b
        have hover : Oversized maxFrameLen (a.drop remoteStreamHeaderLen ++ b) := by
          rw [oversized_iff maxFrameLen id]
          cases hdecode : decodeFrames maxFrameLen id (a.drop remoteStreamHeaderLen ++ b) with
          | ok p => rw [hdecode] at he; cases he
          | error e => rfl
        rw [OversizedLater, take_append_of_le_length (Nat.le_of_not_lt hlen),
          drop_append_of_le_length (Nat.le_of_not_lt hlen), hheader]
        cases hover with
        | header _ h => omega
        | frame h1 h2 h3 => exact ⟨rfl, h1, h2, h3⟩

/-- **Framing does not depend on packet boundaries**, unless an oversized header follows a frame. -/
theorem feed_same_iff (maxFrameLen : ℕ) (bytes : Bytes) :
    (∀ chunks chunks' : List Bytes, chunks.flatten = bytes → chunks'.flatten = bytes →
      (withMaxFrameLen maxFrameLen).feed chunks = (withMaxFrameLen maxFrameLen).feed chunks') ↔
    ¬ OversizedLater maxFrameLen bytes := by
  rw [oversizedLater_iff]
  constructor
  -- in one chunk no frame is handled; cut after a frame, that frame is
  · rintro h ⟨⟨e, he⟩, a, b, d, frames, rfl, hne, ha⟩
    have hone := h [a ++ b] [a, b] (by simp) (by simp)
    rw [withMaxFrameLen, feed_cons_error he, feed_cons_ok ha] at hone
    rw [push_append, ha] at he
    cases hb : d.push b with
    | ok p => simp [Except.bind, hb, Except.map] at he
    | error e =>
      obtain ⟨more, hmore, -⟩ := (feed_spec d frames b []).2 e (by simpa using hb)
      rw [nil_append, hmore] at hone
      simp_all
  · intro hb chunks chunks' h h'
    have hsame : ∀ chunks : List Bytes, chunks.flatten = bytes → (withMaxFrameLen maxFrameLen).feed chunks =
        match (RemoteStreamDecoder.withMaxFrameLen maxFrameLen).push bytes with
        | .ok (_, frames) => (frames, false)
        | .error _ => ([], true) := by
      rintro (_ | ⟨chunk, chunks⟩) rfl
      · rfl
      obtain ⟨hok, herror⟩ := feed_spec (.withMaxFrameLen maxFrameLen) [] chunk chunks
      rw [flatten_cons] at hb ⊢
      cases hp : (RemoteStreamDecoder.withMaxFrameLen maxFrameLen).push (chunk ++ chunks.flatten) with
      | ok p => exact hok p.1 p.2 hp
      | error e =>
        obtain ⟨frames, hfeed, hpart⟩ := herror e hp
        by_cases h0 : frames = []
        · rw [h0] at hfeed
          exact hfeed
        · obtain ⟨a, b, d, hcut, ha⟩ := hpart h0
          exact absurd ⟨⟨e, hp⟩, a, b, d, frames, hcut, h0, ha⟩ hb
    rw [hsame chunks h, hsame chunks' h']

/-- A frame and an oversized header: cut between them, the frame is handled; in one chunk it is not. -/
theorem frame_lost_in_chunk :
    (withMaxFrameLen 1).feed [[0x4b, 0x41, 0x49, 0x52, 1, 0, 0, 0, 1, 7], [0, 0, 0, 2]] =
        ([⟨.control, [7]⟩], true) ∧
      (withMaxFrameLen 1).feed [[0x4b, 0x41, 0x49, 0x52, 1, 0, 0, 0, 1, 7, 0, 0, 0, 2]] =
        ([], true) := by
  decide +kernel

end StreamFrameInbound

/-! ## Cuts of an encoded stream -/

/-- The bytes an encoder makes of some payloads. -/
def RemoteStreamEncoder.encodeFrames (e : RemoteStreamEncoder) : List Bytes → Except StreamError Bytes
  | [] => .ok []
  | payload :: payloads =>
    let (e, bytes) := e.encodeFrame payload
    bytes.bind fun bytes => (e.encodeFrames payloads).map (bytes ++ ·)

lemma RemoteStreamEncoder.encodeFrames_ok {e : RemoteStreamEncoder} {payloads : List Bytes}
    {bytes : Bytes} (h : e.encodeFrames payloads = .ok bytes) : (∀ p ∈ payloads, p.length < 2 ^ 32) ∧
      bytes = (if e.headerWritten ∨ payloads = [] then [] else encodeRemoteStreamHeader e.streamId) ++
        payloads.flatMap frameBytes := by
  induction payloads generalizing e bytes with
  | nil =>
    cases h
    simp
  | cons p ps ih =>
    by_cases hp : p.length < 2 ^ 32
    · simp only [encodeFrames, encodeFrame, encodeRemoteStreamFrame, if_pos hp, Except.map, Except.bind] at h
      split at h
      · cases h
      next more hmore =>
      cases h
      obtain ⟨hps, rfl⟩ := ih hmore
      exact ⟨forall_mem_cons.mpr ⟨hp, hps⟩, by simp [frameBytes]⟩
    · simp only [encodeFrames, encodeFrame, encodeRemoteStreamFrame, if_neg hp, Except.map, Except.bind] at h
      cases h

namespace RemoteStreamDecoder

def pushAll (d : RemoteStreamDecoder) : List Bytes →
    Except StreamError (RemoteStreamDecoder × List RemoteStreamFrame)
  | [] => .ok (d, [])
  | chunk :: chunks => (d.push chunk).bind fun (d, frames) =>
    (d.pushAll chunks).map fun (d, more) => (d, frames ++ more)

variable {d d' : RemoteStreamDecoder} {chunks payloads : List Bytes}

lemma push_nil_of_push (h : d.push a = .ok (d', frames)) : d'.push [] = .ok (d', []) := by
  have hnil := push_append d a []
  rw [append_nil, h] at hnil
  dsimp only [Except.bind] at hnil
  cases hp : d'.push [] with
  | error e => rw [hp] at hnil; cases hnil
  | ok p => rw [hp] at hnil; simp_all [Except.map, Prod.ext_iff]

lemma pushAll_eq (h : d.push [] = .ok (d, [])) (chunks : List Bytes) :
    d.pushAll chunks = d.push chunks.flatten := by
  induction chunks generalizing d with
  | nil => exact h.symm
  | cons chunk chunks ih =>
    rw [flatten_cons, push_append, pushAll]
    cases hp : d.push chunk with
    | error e => rfl
    | ok p => simp only [Except.bind, ih (push_nil_of_push hp)]

/-- A part of some frames that decodes without a rest ends with a frame. -/
lemma whole_frames (h : ∀ p ∈ payloads, p.length < 2 ^ 32 ∧ p.length ≤ maxFrameLen)
    (hcut : a ++ b = payloads.flatMap frameBytes)
    (hd : decodeFrames maxFrameLen id a = .ok (frames, [])) :
    ∃ k, a = (payloads.take k).flatMap frameBytes := by
  induction payloads generalizing a frames with
  | nil => exact ⟨0, (append_eq_nil_iff.mp hcut).1⟩
  | cons p ps ih =>
    obtain ⟨hlen, hmax⟩ := h p (by simp)
    rw [flatMap_cons, append_eq_append_iff] at hcut
    obtain ⟨c, hp, hb⟩ | ⟨c, rfl, hb⟩ := hcut
    · -- the cut is inside the first frame, so nothing of it is decoded
      have hlong : a.length + c.length = 4 + p.length := by
        rw [← length_append, ← hp, frameBytes, length_append]
        rfl
      have hrest : decodeFrames maxFrameLen id a = .ok ([], a) ∨ c = [] := by
        rw [decodeFrames, remoteStreamFrameHeaderLen]
        split_ifs with hshort
        · exact .inl rfl
        have hf : frameLen a = p.length := by
          rw [← frameLen_append_right (Nat.le_of_not_lt hshort) c, ← hp]
          exact frameLen_append _ hlen _
        rw [hf, if_neg (Nat.not_lt.mpr hmax)]
        split_ifs with hpart
        · exact .inl rfl
        · exact .inr (length_eq_zero_iff.mp (by omega))
      obtain hrest | rfl := hrest
      · rw [hrest] at hd
        cases hd
        exact ⟨0, rfl⟩
      · exact ⟨1, by simpa using hp.symm⟩
    · rw [decodeFrames_cons hlen hmax] at hd
      split at hd <;> cases hd
      obtain ⟨k, rfl⟩ := ih (fun q hq => h q (mem_cons_of_mem _ hq)) hb.symm ‹_›
      exact ⟨k + 1, by simp⟩

/-- Before the header of a stream, after it, or after a frame. -/
def AtBoundary (id : RemoteStreamId) (payloads : List Bytes) (cut : Bytes) : Prop :=
  cut = [] ∨ ∃ k, cut = encodeRemoteStreamHeader id ++ (payloads.take k).flatMap frameBytes

/-- **Round trip under any chunking**: however the bytes of an encoder are cut, the pushes return its
payloads; the decoder finishes after all of them and after no part that ends elsewhere than between
frames. -/
theorem pushAll_encoded {bytes : Bytes} (hmax : ∀ p ∈ payloads, p.length ≤ maxFrameLen)
    (h : (RemoteStreamEncoder.new id).encodeFrames payloads = .ok bytes) :
    (∀ chunks : List Bytes, chunks.flatten = bytes → ∃ d,
      (withMaxFrameLen maxFrameLen).pushAll chunks = .ok (d, payloads.map (⟨id, ·⟩)) ∧
        d.finish = .ok ()) ∧
    ∀ (chunks : List Bytes) (rest : Bytes), chunks.flatten ++ rest = bytes →
      ¬ AtBoundary id payloads chunks.flatten → ∃ d frames e,
        (withMaxFrameLen maxFrameLen).pushAll chunks = .ok (d, frames) ∧ d.finish = .error e := by
  obtain ⟨hlen, rfl⟩ := RemoteStreamEncoder.encodeFrames_ok h
  have hframes : ∀ p ∈ payloads, p.length < 2 ^ 32 ∧ p.length ≤ maxFrameLen :=
    fun p hp => ⟨hlen p hp, hmax p hp⟩
  simp only [pushAll_eq (StreamFrameInbound.push_start maxFrameLen [])]
  obtain rfl | hne := eq_or_ne payloads []
  · refine ⟨fun chunks hc => ⟨withMaxFrameLen maxFrameLen, ?_, rfl⟩, fun chunks rest hc hcut => ?_⟩
    · rw [hc]
      exact StreamFrameInbound.push_start maxFrameLen []
    · exact absurd (.inl (append_eq_nil_iff.mp hc).1) hcut
  rw [if_neg (by simp [hne, RemoteStreamEncoder.new])]
  have hall := @decodeAvailable_encoded id _ _ hframes
  refine ⟨fun chunks hc => ⟨_, by rw [hc]; exact hall, rfl⟩, fun chunks rest hc hcut => ?_⟩
  generalize chunks.flatten = cut at hc hcut ⊢
  replace hall := (congrArg (withMaxFrameLen maxFrameLen).push hc).trans hall
  cases hp : (withMaxFrameLen maxFrameLen).push cut with
  | error e => rw [push_append, hp] at hall; cases hall
  | ok p =>
    obtain ⟨d, frames⟩ := p
    suffices hb : d.buffer ≠ [] by
      refine ⟨d, frames, ?_⟩
      unfold finish
      rw [if_neg (by simpa using hb)]
      split_ifs <;> exact ⟨_, rfl, rfl⟩
    intro hb
    rw [StreamFrameInbound.push_start] at hp
    split_ifs at hp with hshort
    · cases hp
      exact hcut (.inl hb)
    -- the header is complete, so what follows it is a part of the frames
    obtain ⟨c, rfl⟩ : encodeRemoteStreamHeader id <+: cut :=
      prefix_of_prefix_length_le ⟨_, rfl⟩ ⟨rest, hc⟩ (Nat.le_of_not_lt hshort)
    have hlen := length_encodeRemoteStreamHeader id
    rw [take_left' hlen, drop_left' hlen, decodeRemoteStreamHeader_encode] at hp
    dsimp only [Except.bind] at hp
    cases hd : decodeFrames maxFrameLen id c with
    | error e => rw [hd] at hp; cases hp
    | ok q =>
      obtain ⟨frames, left⟩ := q
      rw [hd] at hp
      cases hp
      obtain rfl : left = [] := hb
      obtain ⟨k, rfl⟩ := whole_frames hframes (append_cancel_left ((append_assoc ..).symm.trans hc)) hd
      exact hcut (.inr ⟨k, rfl⟩)

/-- Two payloads, one of them empty, arrive through cuts inside the header and a frame. -/
theorem pushAll_encoded_two : ∃ d,
    (withMaxFrameLen 1).pushAll [[0x4b, 0x41], [0x49, 0x52, 2, 0, 0], [0, 1, 7, 0, 0, 0, 0]] =
      .ok (d, [⟨.ordinary, [7]⟩, ⟨.ordinary, []⟩]) ∧ d.finish = .ok () :=
  (@pushAll_encoded 1 .ordinary [[7], []] _ (by simp) rfl).1 _ rfl

end RemoteStreamDecoder

end Kairo.Remote
