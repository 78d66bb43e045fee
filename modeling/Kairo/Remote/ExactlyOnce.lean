import Kairo.Remote.ReliableDelivery

/-!
# Exactly-once delivery in order

One sender and one receiver over a channel that may lose, repeat and reorder in both directions: every
envelope that was ever retained and every reply that was ever produced may arrive at any time.
-/

namespace Kairo.Remote

open List ReliableSystemSender

variable {A : Type*}

/-- What the receiver sends back. -/
inductive ReliableSystemReply
  | ack (ack : ReliableSystemAck)
  | nack (nack : ReliableSystemNack)

namespace ReliableSystemReply

def fromUid : ReliableSystemReply → ℕ
  | ack a => a.fromUid
  | nack n => n.fromUid

def toUid : ReliableSystemReply → ℕ
  | ack a => a.toUid
  | nack n => n.toUid

/-- The highest sequence number that the reply covers. -/
def sequenceNr : ReliableSystemReply → ℕ
  | ack a => a.sequenceNr
  | nack n => n.highestContiguousSequenceNr

end ReliableSystemReply

def ReliableSystemReceiveOutcome.reply : ReliableSystemReceiveOutcome A → ReliableSystemReply
  | deliver _ ack | duplicate ack => .ack ack
  | gap nack => .nack nack

def ReliableSystemReceiveOutcome.delivered : ReliableSystemReceiveOutcome A → List (RemoteEnvelope A)
  | deliver envelope _ => [envelope]
  | _ => []

def ReliableSystemSender.handleReply (s : ReliableSystemSender A) :
    ReliableSystemReply → Except (RemoteError A) (ReliableSystemSender A × ℕ)
  | .ack a => s.acknowledge a
  | .nack n => s.negativeAcknowledge n

structure ReliableChannel (A : Type*) where
  sender : ReliableSystemSender A
  receiver : ReliableSystemReceiver
  /-- The envelopes that were ever retained, in order. -/
  retained : List (ReliableSystemEnvelope A)
  /-- The envelopes that were classified as deliveries, in order. -/
  delivered : List (RemoteEnvelope A)
  replies : List ReliableSystemReply
  /-- The highest number that a reply accepted by the sender covers. -/
  acknowledged : ℕ

namespace ReliableChannel

inductive Action (A : Type*)
  | retain (envelope : RemoteEnvelope A)
  | arrive (i : ℕ)
  | reply (i : ℕ)

def new (u v capacity : ℕ) : ReliableChannel A :=
  ⟨⟨u, v, 1, capacity, []⟩, .new v u, [], [], [], 0⟩

def step (c : ReliableChannel A) : Action A → ReliableChannel A
  | .retain envelope =>
    match c.sender.retain envelope with
    | .error _ => c
    | .ok (s, e) => { c with sender := s, retained := c.retained ++ [e] }
  | .arrive i =>
    match c.retained[i]? with
    | none => c
    | some e =>
      match c.receiver.receive e with
      | .error _ => c
      | .ok (r, outcome) =>
        { c with
          receiver := r
          delivered := c.delivered ++ outcome.delivered
          replies := c.replies ++ [outcome.reply] }
  | .reply i =>
    match c.replies[i]? with
    | none => c
    | some reply =>
      match c.sender.handleReply reply with
      | .error _ => c
      | .ok (s, _) => { c with sender := s, acknowledged := max c.acknowledged reply.sequenceNr }

def run (c : ReliableChannel A) (actions : List (Action A)) : ReliableChannel A :=
  actions.foldl step c

/-- The state of a channel between the incarnations `u` and `v`. -/
structure Inv (u v k : ℕ) (c : ReliableChannel A) : Prop where
  senderUids : c.sender.localUid = u ∧ c.sender.remoteUid = v
  receiverUids : c.receiver.localUid = v ∧ c.receiver.remoteUid = u
  numbered : ∀ i e, c.retained[i]? = some e → e.sequenceNr = i + 1
  next : c.sender.nextSequenceNr = c.retained.length + 1
  pending : c.sender.unacknowledged = c.retained.drop c.acknowledged
  capacity : c.sender.capacity = k
  bounded : c.sender.unacknowledged.length ≤ k
  expected : c.receiver.nextExpectedSequenceNr = c.delivered.length + 1
  delivered : c.delivered <+: c.retained.map (·.envelope)
  acknowledged : c.acknowledged ≤ c.delivered.length
  replies : ∀ x ∈ c.replies, x.fromUid = v ∧ x.toUid = u ∧ x.sequenceNr ≤ c.delivered.length

variable {u v k : ℕ} {c : ReliableChannel A}

lemma dropWhile_drop {l : List (ReliableSystemEnvelope A)}
    (h : ∀ i e, l[i]? = some e → e.sequenceNr = i + 1) (n a : ℕ) :
    (l.drop a).dropWhile (·.sequenceNr ≤ n) = l.drop (max a n) := by
  by_cases ha : a < l.length
  · have hseq := h a _ (getElem?_eq_getElem ha)
    rw [drop_eq_getElem_cons ha]
    by_cases hn : a + 1 ≤ n
    · rw [dropWhile_cons_of_pos (by simpa [hseq] using hn), dropWhile_drop h n (a + 1),
        max_eq_right hn, max_eq_right (by omega)]
    · rw [dropWhile_cons_of_neg (by simpa [hseq] using hn), max_eq_left (by omega),
        drop_eq_getElem_cons ha]
  · rw [drop_of_length_le (by omega), drop_of_length_le (by omega)]
    rfl
termination_by l.length - a

namespace Inv

section

variable (h : Inv u v k c) {e : ReliableSystemEnvelope A} {x : ReliableSystemReply}

include h

lemma length_le : c.delivered.length ≤ c.retained.length := by
  simpa using h.delivered.length_le

lemma handleReply (hx : x ∈ c.replies) :
    c.sender.handleReply x = .ok (c.sender.clearThrough x.sequenceNr) := by
  obtain ⟨h1, h2, h3⟩ := h.replies x hx
  have hle := h.length_le
  have hv : c.sender.validateReply x.fromUid x.toUid x.sequenceNr = .ok () := by
    rw [validateReply, if_neg (by simp [h1, h2, h.senderUids]), h.next]
    exact if_neg (by omega)
  cases x with
  | ack a =>
    change c.sender.validateReply a.fromUid a.toUid a.sequenceNr = _ at hv
    rw [handleReply, acknowledge, hv]
    rfl
  | nack n =>
    change c.sender.validateReply n.fromUid n.toUid n.highestContiguousSequenceNr = _ at hv
    rw [handleReply, negativeAcknowledge, hv]
    rfl

lemma retain {envelope : RemoteEnvelope A} {s : ReliableSystemSender A}
    (hr : c.sender.retain envelope = .ok (s, e)) :
    Inv u v k { c with sender := s, retained := c.retained ++ [e] } := by
  have hroom : c.sender.unacknowledged.length < c.sender.capacity := by
    by_contra hfull
    rw [ReliableSystemSender.retain, if_pos (not_lt.mp hfull)] at hr
    cases hr
  obtain ⟨rfl, rfl⟩ := retain_eq_ok hr
  have hle := h.length_le
  have hack := h.acknowledged
  refine { h with
    numbered := fun i e hi => ?_
    next := by simp [h.next]
    pending := ?_
    bounded := by simpa [h.capacity] using Nat.succ_le_of_lt hroom
    delivered := h.delivered.trans (by simp) }
  · rw [getElem?_append] at hi
    split_ifs at hi with hlt
    · exact h.numbered i e hi
    · obtain ⟨hi0, rfl⟩ : i - c.retained.length = 0 ∧ _ = e := by
        simpa [getElem?_singleton] using hi
      have : c.sender.nextSequenceNr = i + 1 := by rw [h.next]; omega
      exact this
  · rw [drop_append_of_le_length (hack.trans hle), ← h.pending]

lemma arrive {i : ℕ} (hi : c.retained[i]? = some e) {r : ReliableSystemReceiver}
    {outcome : ReliableSystemReceiveOutcome A} (hr : c.receiver.receive e = .ok (r, outcome)) :
    Inv u v k { c with
      receiver := r
      delivered := c.delivered ++ outcome.delivered
      replies := c.replies ++ [outcome.reply] } := by
  have hseq := h.numbered i e hi
  have hexp := h.expected
  have hack := h.acknowledged
  rcases ReliableSystemReceiver.receive_eq_ok hr with ⟨hnext, rfl, rfl⟩ | ⟨rfl, ho⟩
  · obtain rfl : i = c.delivered.length := by omega
    have htake : c.delivered ++ [e.envelope] =
        (c.retained.map (·.envelope)).take (c.delivered.length + 1) := by
      rw [take_add_one, ← prefix_iff_eq_take.mp h.delivered, getElem?_map, hi]
      rfl
    refine { h with
      expected := by simp [ReliableSystemReceiveOutcome.delivered, hexp]
      delivered := htake ▸ take_prefix _ _
      acknowledged := by simp [ReliableSystemReceiveOutcome.delivered]; omega
      replies := fun x hx => ?_ }
    rw [ReliableSystemReceiveOutcome.delivered, length_append, length_singleton]
    rcases mem_append.mp hx with hx | hx
    · obtain ⟨h1, h2, h3⟩ := h.replies x hx
      exact ⟨h1, h2, by omega⟩
    · obtain rfl := mem_singleton.mp hx
      exact ⟨h.receiverUids.1, h.receiverUids.2, hexp.le⟩
  · -- the reply covers what was delivered so far
    have hnone : outcome.delivered = [] := by rcases ho with rfl | rfl <;> rfl
    have hreply : outcome.reply.fromUid = v ∧ outcome.reply.toUid = u ∧
        outcome.reply.sequenceNr = c.receiver.nextExpectedSequenceNr - 1 := by
      rcases ho with rfl | rfl <;> exact ⟨h.receiverUids.1, h.receiverUids.2, rfl⟩
    rw [hnone, append_nil]
    have hbound : outcome.reply.sequenceNr ≤ c.delivered.length := by omega
    refine { h with replies := ?_ }
    exact forall_mem_append.mpr ⟨h.replies, forall_mem_singleton.mpr ⟨hreply.1, hreply.2.1, hbound⟩⟩

lemma reply (hx : x ∈ c.replies) :
    Inv u v k { c with
      sender := (c.sender.clearThrough x.sequenceNr).1
      acknowledged := max c.acknowledged x.sequenceNr } := by
  refine { h with
    pending := ?_
    bounded := ((dropWhile_suffix _).length_le).trans h.bounded
    acknowledged := max_le h.acknowledged (h.replies x hx).2.2 }
  rw [clearThrough, h.pending]
  exact dropWhile_drop h.numbered _ _

lemma step (action : Action A) : Inv u v k (c.step action) := by
  cases action with
  | retain envelope =>
    rw [ReliableChannel.step]
    split
    · exact h
    · next hr => exact h.retain hr
  | arrive i =>
    rw [ReliableChannel.step]
    split
    · exact h
    · next hi =>
      split
      · exact h
      · next hr => exact h.arrive hi hr
  | reply i =>
    rw [ReliableChannel.step]
    split
    · exact h
    · next hi =>
      have hx := mem_of_getElem? hi
      rw [h.handleReply hx]
      exact h.reply hx

lemma run (actions : List (Action A)) : Inv u v k (c.run actions) := by
  induction actions generalizing c with
  | nil => exact h
  | cons action actions ih => exact ih (h.step action)

end

end Inv

lemma inv_new (u v capacity : ℕ) : Inv u v capacity (new u v capacity : ReliableChannel A) where
  senderUids := ⟨rfl, rfl⟩
  receiverUids := ⟨rfl, rfl⟩
  numbered i e h := by cases h
  next := rfl
  pending := rfl
  capacity := rfl
  bounded := Nat.zero_le _
  expected := rfl
  delivered := nil_prefix
  acknowledged := le_rfl
  replies x h := by cases h

/-- **Every envelope is delivered at most once and in order, the sender keeps exactly what is not
acknowledged, and no reply clears what was not delivered.** -/
theorem exactly_once (u v capacity : ℕ) (actions : List (Action A)) :
    let c := (new u v capacity).run actions
    c.delivered <+: c.retained.map (·.envelope) ∧
      (∀ i e, c.retained[i]? = some e → e.sequenceNr = i + 1) ∧
      c.sender.unacknowledged = c.retained.drop c.acknowledged ∧
      c.sender.unacknowledged.length ≤ capacity ∧
      ∀ x ∈ c.replies, ∃ s n, c.sender.handleReply x = .ok (s, n) ∧
        s.unacknowledged = c.sender.unacknowledged.drop n ∧
        ∀ e ∈ c.sender.unacknowledged.take n, e ∈ c.retained.take c.delivered.length := by
  intro c
  have h : Inv u v capacity c := (inv_new u v capacity).run actions
  refine ⟨h.delivered, h.numbered, h.pending, h.bounded, fun x hx =>
    ⟨_, _, h.handleReply hx, ?_, fun e he => ?_⟩⟩
  · exact drop_left.symm.trans (congrArg (drop _) takeWhile_append_dropWhile)
  · obtain ⟨hmem, hle⟩ := mem_take_clearThrough he
    have hn := (h.replies x hx).2.2
    obtain ⟨i, hi⟩ := getElem?_of_mem (mem_of_mem_drop (h.pending ▸ hmem))
    have hseq := h.numbered i e hi
    refine mem_of_getElem? (i := i) ?_
    rw [getElem?_take_of_lt (by omega), hi]

end ReliableChannel

end Kairo.Remote
