import Kairo.Remote.ReliableDelivery

/-!
# Reliable delivery on one link

The protocol between the sender of one system and the receiver of another, without the runtimes around
them.  Frames that were sent once stay available, so that loss, repetition and reordering need no steps
of their own.  `Link.Step` has the steps on which every acknowledgement is earned: a frame is
classified while no delivery is in progress, every delivery succeeds, and a sender that was removed is
not created again.  `Link.Inv` then says that replies cover handled envelopes only.
-/

namespace Kairo.Remote

open List

variable {A : Type*}

@[ext]
structure Link (A : Type*) where
  sender : Option (ReliableSystemSender A)
  /-- The sender state was removed. -/
  failed : Prop
  receiver : Option ReliableSystemReceiver
  /-- Envelopes sent to the receiver. -/
  envelopes : Set (ReliableSystemEnvelope A)
  /-- Sequence numbers of the replies sent to the sender. -/
  replies : Set ℕ
  /-- Deliveries in progress, with the sequence numbers of their acknowledgements. -/
  delivering : Set (ReliableSystemEnvelope A × ℕ)
  handled : Set (ReliableSystemEnvelope A)
  /-- Envelopes that the sender dropped because of a reply. -/
  dropped : Set (ReliableSystemEnvelope A)

namespace Link

/-- The steps of a link between the incarnations `u` and `v`. -/
inductive Step (u v : ℕ) (l : Link A) : Link A → Prop
  | create (capacity : ℕ) : l.sender = none → ¬ l.failed →
      Step u v l { l with sender := some ⟨u, v, 1, capacity, []⟩ }
  | retain {s s' : ReliableSystemSender A} {envelope : RemoteEnvelope A}
      {e : ReliableSystemEnvelope A} : l.sender = some s → s.retain envelope = .ok (s', e) →
      Step u v l { l with sender := some s' }
  | forget : Step u v l { l with sender := none, failed := l.failed ∨ l.sender.isSome = true }
  | send {s : ReliableSystemSender A} {es : Set (ReliableSystemEnvelope A)} : l.sender = some s →
      (∀ e ∈ es, e ∈ s.unacknowledged) → Step u v l { l with envelopes := l.envelopes ∪ es }
  | listen : l.receiver = none → Step u v l { l with receiver := some ⟨v, u, 1⟩ }
  | deliver {r : ReliableSystemReceiver} {e : ReliableSystemEnvelope A} : l.delivering = ∅ →
      l.receiver = some r → e ∈ l.envelopes → e.sequenceNr = r.nextExpectedSequenceNr →
      Step u v l { l with
        receiver := some { r with nextExpectedSequenceNr := r.nextExpectedSequenceNr + 1 }
        delivering := {(e, e.sequenceNr)} }
  | answer {r : ReliableSystemReceiver} : l.delivering = ∅ → l.receiver = some r →
      Step u v l { l with replies := insert (r.nextExpectedSequenceNr - 1) l.replies }
  | finish {d : ReliableSystemEnvelope A × ℕ} {rest : Set (ReliableSystemEnvelope A × ℕ)} :
      d ∈ l.delivering → rest ⊆ l.delivering → l.delivering ⊆ insert d rest →
      Step u v l { l with
        delivering := rest
        replies := insert d.2 l.replies
        handled := insert d.1 l.handled }
  | acknowledge {s : ReliableSystemSender A} {n : ℕ} : l.sender = some s → n ∈ l.replies →
      Step u v l { l with
        sender := some (s.clearThrough n).1
        dropped := l.dropped ∪ {e | e ∈ s.unacknowledged.take (s.clearThrough n).2} }

/-- `retained` are the envelopes the sender has ever retained, in order. -/
structure Inv (u v : ℕ) (retained : List (ReliableSystemEnvelope A)) (l : Link A) : Prop where
  numbered : ∀ (i : ℕ) e, retained[i]? = some e → e.sequenceNr = i + 1
  sender : ∀ s, l.sender = some s → (s.localUid = u ∧ s.remoteUid = v) ∧
    s.nextSequenceNr = retained.length + 1 ∧ ∀ e ∈ s.unacknowledged, e ∈ retained
  fresh : l.sender = none → ¬ l.failed → retained = []
  sent : ∀ e ∈ l.envelopes, e ∈ retained
  receiver : ∀ r, l.receiver = some r → r.remoteUid = u ∧ 1 ≤ r.nextExpectedSequenceNr ∧
    r.nextExpectedSequenceNr ≤ retained.length + 1 ∧
    ∀ e ∈ retained, e.sequenceNr < r.nextExpectedSequenceNr →
      e ∈ l.handled ∨ ∃ n, (e, n) ∈ l.delivering
  delivering : ∀ d ∈ l.delivering, d.1 ∈ retained ∧ d.2 = d.1.sequenceNr ∧
    ∃ r, l.receiver = some r ∧ d.1.sequenceNr + 1 = r.nextExpectedSequenceNr
  replies : ∀ n ∈ l.replies, n ≤ retained.length ∧
    ∀ e ∈ retained, e.sequenceNr ≤ n → e ∈ l.handled
  dropped : ∀ e ∈ l.dropped, e ∈ l.handled

namespace Inv

variable {u v : ℕ} {retained : List (ReliableSystemEnvelope A)} {l l' : Link A}
  {e : ReliableSystemEnvelope A}

section

variable (h : Inv u v retained l)

include h

lemma bounds (he : e ∈ retained) : 1 ≤ e.sequenceNr ∧ e.sequenceNr ≤ retained.length := by
  obtain ⟨i, hi, he⟩ := getElem_of_mem he
  have := h.numbered i e (List.getElem?_eq_some_iff.mpr ⟨hi, he⟩)
  omega

lemma eq_of_sequenceNr_eq {e e' : ReliableSystemEnvelope A} (he : e ∈ retained)
    (he' : e' ∈ retained) (hs : e.sequenceNr = e'.sequenceNr) : e = e' := by
  obtain ⟨i, hi⟩ := getElem?_of_mem he
  obtain ⟨j, hj⟩ := getElem?_of_mem he'
  have h1 := h.numbered i e hi
  have h2 := h.numbered j e' hj
  obtain rfl : i = j := by omega
  rw [hi] at hj
  exact Option.some.inj hj

/-- With no delivery in progress everything the receiver has counted is handled. -/
lemma handled_of_idle (hd : l.delivering = ∅) {r : ReliableSystemReceiver}
    (hr : l.receiver = some r) (he : e ∈ retained) (hlt : e.sequenceNr < r.nextExpectedSequenceNr) :
    e ∈ l.handled := by
  rcases (h.receiver r hr).2.2.2 e he hlt with hh | ⟨n, hn⟩
  · exact hh
  · rw [hd] at hn
    exact hn.elim

lemma retain {s s' : ReliableSystemSender A} {envelope : RemoteEnvelope A} (hs : l.sender = some s)
    (hr : s.retain envelope = .ok (s', e)) :
    Inv u v (retained ++ [e]) { l with sender := some s' } := by
  obtain ⟨rfl, rfl⟩ := ReliableSystemSender.retain_eq_ok hr
  obtain ⟨huid, hnext, hunack⟩ := h.sender s hs
  -- the sequence number of the new envelope is above all that count
  have hold : ∀ {e'}, e' ∈ retained ++ [(⟨s.localUid, s.remoteUid, s.nextSequenceNr, envelope⟩ :
      ReliableSystemEnvelope A)] → e'.sequenceNr ≤ retained.length → e' ∈ retained := by
    intro e' he' hle
    rcases mem_append.mp he' with he' | he'
    · exact he'
    · obtain rfl := mem_singleton.mp he'
      have : s.nextSequenceNr ≤ retained.length := hle
      omega
  refine ⟨fun i e' hi => ?_, fun t ht => ?_, fun hn => ?_, fun e' he' => ?_, fun r hr => ?_,
    fun d hd => ?_, fun n hn => ?_, h.dropped⟩
  · rw [getElem?_append] at hi
    split_ifs at hi with hlt
    · exact h.numbered i e' hi
    · have hi0 : i - retained.length = 0 := by
        by_contra hne
        rw [getElem?_eq_none (by rw [length_singleton]; omega)] at hi
        cases hi
      rw [hi0] at hi
      cases hi
      have : s.nextSequenceNr = i + 1 := by omega
      exact this
  · cases ht
    refine ⟨huid, ?_, fun e' he' => ?_⟩
    · rw [length_append, length_singleton, hnext]
    · rcases mem_append.mp he' with he' | he'
      · exact mem_append_left _ (hunack e' he')
      · exact mem_append_right _ he'
  · cases hn
  · exact mem_append_left _ (h.sent e' he')
  · obtain ⟨h1, h2, h3, h4⟩ := h.receiver r hr
    refine ⟨h1, h2, ?_, fun e' he' hlt => h4 e' (hold he' (by omega)) hlt⟩
    rw [length_append]
    omega
  · obtain ⟨h1, h2⟩ := h.delivering d hd
    exact ⟨mem_append_left _ h1, h2⟩
  · obtain ⟨h1, h2⟩ := h.replies n hn
    refine ⟨?_, fun e' he' hle => h2 e' (hold he' (by omega)) hle⟩
    rw [length_append]
    omega

end

/-- **Every step keeps the invariant.** -/
theorem step (h : Inv u v retained l) (hs : Step u v l l') : ∃ retained', Inv u v retained' l' := by
  cases hs with
  | create capacity hn hf =>
    obtain rfl := h.fresh hn hf
    refine ⟨[], { h with sender := fun s hs => ?_, fresh := fun hs => ?_ }⟩
    · cases hs
      exact ⟨⟨rfl, rfl⟩, rfl, fun e he => he⟩
    · cases hs
  | retain hs hr => exact ⟨_, h.retain hs hr⟩
  | forget =>
    refine ⟨retained, { h with sender := fun s hs => ?_, fresh := fun _ hf => ?_ }⟩
    · cases hs
    · have hnf : ¬ l.failed := fun hl => hf (.inl hl)
      refine h.fresh ?_ hnf
      cases hl : l.sender with
      | none => rfl
      | some s => exact absurd (.inr (by rw [hl]; rfl)) hf
  | send hs hes =>
    refine ⟨retained, { h with sent := fun e he => ?_ }⟩
    rcases he with he | he
    · exact h.sent e he
    · exact (h.sender _ hs).2.2 e (hes e he)
  | listen hr =>
    refine ⟨retained, { h with receiver := fun r hr' => ?_, delivering := fun d hd => ?_ }⟩
    · cases hr'
      refine ⟨rfl, le_refl _, Nat.le_add_left 1 _, fun e he hlt => ?_⟩
      have := h.bounds he
      have : e.sequenceNr < 1 := hlt
      omega
    · obtain ⟨-, -, r, hr', -⟩ := h.delivering d hd
      rw [hr] at hr'
      cases hr'
  | @deliver r e hd hr he hseq =>
    have hmem := h.sent e he
    obtain ⟨h1, h2, h3, -⟩ := h.receiver r hr
    refine ⟨retained, { h with receiver := fun r' hr' => ?_, delivering := fun d hd' => ?_ }⟩
    · cases hr'
      have hle := h.bounds hmem
      refine ⟨h1, ?_, ?_, fun e' he' hlt => ?_⟩
      · dsimp only
        omega
      · dsimp only
        omega
      · rcases Nat.lt_or_ge e'.sequenceNr r.nextExpectedSequenceNr with hlt' | hge
        · exact .inl (h.handled_of_idle hd hr he' hlt')
        · have heq : e'.sequenceNr = e.sequenceNr := by
            have : e'.sequenceNr < r.nextExpectedSequenceNr + 1 := hlt
            omega
          obtain rfl := h.eq_of_sequenceNr_eq he' hmem heq
          exact .inr ⟨_, rfl⟩
    · obtain rfl := Set.mem_singleton_iff.mp hd'
      exact ⟨hmem, rfl, _, rfl, by rw [hseq]⟩
  | @answer r hd hr =>
    refine ⟨retained, { h with replies := fun n hn => ?_ }⟩
    rcases hn with rfl | hn
    · obtain ⟨-, h2, h3, -⟩ := h.receiver r hr
      exact ⟨by omega, fun e he hle => h.handled_of_idle hd hr he (by omega)⟩
    · exact h.replies n hn
  | @finish d rest hd hrest hall =>
    obtain ⟨hmem, hack, r, hr, hnext⟩ := h.delivering d hd
    refine ⟨retained, { h with
      receiver := fun r' hr' => ?_
      delivering := fun d' hd' => h.delivering d' (hrest hd')
      replies := fun n hn => ?_
      dropped := fun e he => .inr (h.dropped e he) }⟩
    · obtain ⟨h1, h2, h3, h4⟩ := h.receiver r' hr'
      refine ⟨h1, h2, h3, fun e he hlt => ?_⟩
      rcases h4 e he hlt with hh | ⟨n, hn⟩
      · exact .inl (.inr hh)
      · rcases hall hn with heq | hn
        · exact .inl (.inl (congrArg Prod.fst heq))
        · exact .inr ⟨n, hn⟩
    · rcases hn with rfl | hn
      · have hle := h.bounds hmem
        refine ⟨by omega, fun e he hle' => ?_⟩
        rcases (h.receiver r hr).2.2.2 e he (by omega) with hh | ⟨n, hn⟩
        · exact .inr hh
        · -- a delivery in progress is the last one the receiver has counted
          obtain ⟨-, -, r', hr', hnext'⟩ := h.delivering _ hn
          rw [hr] at hr'
          cases hr'
          have hnum : e.sequenceNr = d.1.sequenceNr := by
            have : e.sequenceNr + 1 = r.nextExpectedSequenceNr := hnext'
            omega
          exact .inl (h.eq_of_sequenceNr_eq he hmem hnum)
      · obtain ⟨h1, h2⟩ := h.replies n hn
        exact ⟨h1, fun e he hle => .inr (h2 e he hle)⟩
  | @acknowledge s n hs hn =>
    obtain ⟨huid, hnext, hunack⟩ := h.sender s hs
    refine ⟨retained, { h with
      sender := fun s' hs' => ?_
      fresh := fun hs' => ?_
      dropped := fun e he => ?_ }⟩
    · cases hs'
      exact ⟨huid, hnext, fun e he => hunack e ((dropWhile_suffix _).subset he)⟩
    · cases hs'
    · rcases he with he | he
      · exact h.dropped e he
      · obtain ⟨h1, h2⟩ := ReliableSystemSender.mem_take_clearThrough he
        exact (h.replies n hn).2 e (hunack e h1) h2

lemma steps (h : ∃ retained, Inv u v retained l)
    (hs : Relation.ReflTransGen (Step u v) l l') : ∃ retained, Inv u v retained l' := by
  induction hs with
  | refl => exact h
  | tail _ hstep ih =>
    obtain ⟨retained, hi⟩ := ih
    exact hi.step hstep

end Inv

end Link

end Kairo.Remote
