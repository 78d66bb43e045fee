import Kairo.Remote.ConcurrentRuntime

/-!
# Sequence numbers under concurrent calls

A sender numbers the envelopes for one incarnation of the remote system.  Its numbers stay unique as
long as the numbering of an incarnation starts once: `Numbering` relates the senders of the runtime to
the list of the envelopes that ever got a number.  A receiver that is fed with such envelopes, in any
order and any number of times, calls an envelope a duplicate only after it has delivered this one.
-/

set_option linter.unusedSectionVars false

namespace Kairo.Remote

open Kairo.Lib List Option FinMap ReliableSystemSender ReliableSystemReceiver

variable {A : Type*} {e : ReliableSystemEnvelope A} {ack : ReliableSystemAck}
  {r r' : ReliableSystemReceiver}

/-! ## What a receiver delivers -/

namespace ReliableSystemReceiver

/-- A receiver after some envelopes, and the ones it has delivered. -/
def feed (r : ReliableSystemReceiver) :
    List (ReliableSystemEnvelope A) → ReliableSystemReceiver × List (ReliableSystemEnvelope A)
  | [] => (r, [])
  | e :: es =>
    match r.receive e with
    | .ok (r', .deliver ..) => ((feed r' es).1, e :: (feed r' es).2)
    | .ok (r', .duplicate _) | .ok (r', .gap _) => feed r' es
    | .error _ => feed r es

lemma receive_eq_deliver {envelope : RemoteEnvelope A}
    (h : r.receive e = .ok (r', .deliver envelope ack)) :
    (e.fromUid = r.remoteUid ∧ e.toUid = r.localUid) ∧ e.sequenceNr = r.nextExpectedSequenceNr ∧
      r' = { r with nextExpectedSequenceNr := r.nextExpectedSequenceNr + 1 } := by
  have huid : e.fromUid = r.remoteUid ∧ e.toUid = r.localUid := by
    by_contra hne
    rw [not_and_or] at hne
    rw [receive, if_pos hne] at h
    cases h
  rcases receive_eq_ok h with ⟨hseq, hr, -⟩ | ⟨-, hout | hout⟩
  · exact ⟨huid, hseq, hr⟩
  all_goals cases hout

lemma receive_eq_duplicate (h : r.receive e = .ok (r', .duplicate ack)) :
    (e.fromUid = r.remoteUid ∧ e.toUid = r.localUid) ∧ e.sequenceNr < r.nextExpectedSequenceNr := by
  unfold receive at h
  by_cases huid : e.fromUid ≠ r.remoteUid ∨ e.toUid ≠ r.localUid
  · rw [if_pos huid] at h
    cases h
  rw [if_neg huid] at h
  rw [not_or, not_not, not_not] at huid
  refine ⟨huid, ?_⟩
  by_cases heq : e.sequenceNr = r.nextExpectedSequenceNr
  · rw [if_pos heq] at h
    split at h <;> cases h
  rw [if_neg heq] at h
  by_contra hlt
  rw [if_neg hlt] at h
  cases h

lemma exists_delivered (es : List (ReliableSystemEnvelope A)) (r : ReliableSystemReceiver) :
    ((r.feed es).1.localUid = r.localUid ∧ (r.feed es).1.remoteUid = r.remoteUid) ∧
      ∀ n, r.nextExpectedSequenceNr ≤ n → n < (r.feed es).1.nextExpectedSequenceNr →
        ∃ e ∈ (r.feed es).2, e ∈ es ∧ (e.fromUid = r.remoteUid ∧ e.toUid = r.localUid) ∧
          e.sequenceNr = n := by
  -- the first envelope is delivered with the next number, or changes nothing
  induction es generalizing r with
  | nil =>
    refine ⟨⟨rfl, rfl⟩, fun n h1 h2 => ?_⟩
    have h3 : n < r.nextExpectedSequenceNr := h2
    omega
  | cons e es ih =>
    have hsame : r.feed (e :: es) = r.feed es →
        ((r.feed (e :: es)).1.localUid = r.localUid ∧
          (r.feed (e :: es)).1.remoteUid = r.remoteUid) ∧
        ∀ n, r.nextExpectedSequenceNr ≤ n → n < (r.feed (e :: es)).1.nextExpectedSequenceNr →
          ∃ x ∈ (r.feed (e :: es)).2, x ∈ e :: es ∧
            (x.fromUid = r.remoteUid ∧ x.toUid = r.localUid) ∧ x.sequenceNr = n := by
      intro hf
      rw [hf]
      refine ⟨(ih r).1, fun n h1 h2 => ?_⟩
      obtain ⟨x, hx, hes, hrest⟩ := (ih r).2 n h1 h2
      exact ⟨x, hx, mem_cons_of_mem _ hes, hrest⟩
    cases hrec : r.receive e with
    | error _ => exact hsame (by rw [feed, hrec])
    | ok x =>
      obtain ⟨r', outcome⟩ := x
      cases outcome with
      | duplicate _ | gap _ =>
        refine hsame ?_
        rcases receive_eq_ok hrec with ⟨-, -, hout⟩ | ⟨rfl, -⟩
        · cases hout
        · rw [feed, hrec]
      | deliver envelope ack =>
        obtain ⟨huid, hseq, rfl⟩ := receive_eq_deliver hrec
        obtain ⟨hids, hdel⟩ :=
          ih { r with nextExpectedSequenceNr := r.nextExpectedSequenceNr + 1 }
        rw [feed, hrec]
        refine ⟨hids, fun n h1 h2 => ?_⟩
        by_cases hn : n = r.nextExpectedSequenceNr
        · exact ⟨e, mem_cons_self, mem_cons_self, huid, hseq.trans hn.symm⟩
        · obtain ⟨x, hx, hes, hrest⟩ := hdel n (by dsimp only; omega) h2
          exact ⟨x, mem_cons_of_mem _ hx, mem_cons_of_mem _ hes, hrest⟩

end ReliableSystemReceiver

/-! ## Numbered envelopes -/

namespace ConcurrentRuntime

open ReliableSystemDeliveryRuntime

variable [DecidableEq A]

/-- `assigned` are the envelopes that ever got a number from one of the senders. -/
structure Numbering (localUid : ℕ) (senders : FinMap A (ReliableSenderState A))
    (incarnations : Finset ℕ) (assigned : List (ReliableSystemEnvelope A)) : Prop where
  unique : ∀ e ∈ assigned, ∀ e' ∈ assigned, e.toUid = e'.toUid → e.sequenceNr = e'.sequenceNr →
    e = e'
  positive : ∀ e ∈ assigned, 1 ≤ e.sequenceNr
  incarnation : ∀ e ∈ assigned, e.fromUid = localUid ∧ e.toUid ∈ incarnations
  sender : ∀ q state, senders.lookup q = some state →
    state.sender.localUid = localUid ∧ state.sender.remoteUid ∈ incarnations ∧
      1 ≤ state.sender.nextSequenceNr
  next : ∀ q state, senders.lookup q = some state → ∀ e ∈ assigned,
    e.toUid = state.sender.remoteUid → e.sequenceNr < state.sender.nextSequenceNr
  retained : ∀ q state, senders.lookup q = some state → ∀ e ∈ state.sender.unacknowledged,
    e ∈ assigned
  /-- Two associations do not number for the same incarnation. -/
  apart : ∀ q q' state state', senders.lookup q = some state → senders.lookup q' = some state' →
    state.sender.remoteUid = state'.sender.remoteUid → q = q'

namespace Numbering

variable {localUid : ℕ} {senders senders' : FinMap A (ReliableSenderState A)}
  {incarnations : Finset ℕ} {assigned : List (ReliableSystemEnvelope A)}

section

variable (h : Numbering localUid senders incarnations assigned) {old base : ReliableSenderState A}
  {q : A}

include h

lemma mono
    (hs : ∀ q state', senders'.lookup q = some state' → ∃ state, senders.lookup q = some state ∧
      state'.sender.localUid = state.sender.localUid ∧
      state'.sender.remoteUid = state.sender.remoteUid ∧
      state'.sender.nextSequenceNr = state.sender.nextSequenceNr ∧
      ∀ e ∈ state'.sender.unacknowledged, e ∈ state.sender.unacknowledged) :
    Numbering localUid senders' incarnations assigned := by
  refine { h with sender := ?_, next := ?_, retained := ?_, apart := ?_ }
  · intro q state' hl
    obtain ⟨state, hl', h1, h2, h3, -⟩ := hs q state' hl
    rw [h1, h2, h3]
    exact h.sender q state hl'
  · intro q state' hl e he hto
    obtain ⟨state, hl', -, h2, h3, -⟩ := hs q state' hl
    rw [h3]
    exact h.next q state hl' e he (hto.trans h2)
  · intro q state' hl e he
    obtain ⟨state, hl', -, -, -, h4⟩ := hs q state' hl
    exact h.retained q state hl' e (h4 e he)
  · intro q q' state state' hl hl' heq
    obtain ⟨a, ha, -, h2, -⟩ := hs q state hl
    obtain ⟨b, hb, -, h2', -⟩ := hs q' state' hl'
    exact h.apart q q' a b ha hb (h2.symm.trans (heq.trans h2'))

lemma erase (q : A) : Numbering localUid (senders.erase q) incarnations assigned := by
  exact h.mono fun q' state hl => ⟨state, of_lookup_erase hl, rfl, rfl, rfl, fun _ he => he⟩

lemma change (hl : senders.lookup q = some old) (h1 : base.sender.localUid = old.sender.localUid)
    (h2 : base.sender.remoteUid = old.sender.remoteUid)
    (h3 : base.sender.nextSequenceNr = old.sender.nextSequenceNr)
    (h4 : ∀ e ∈ base.sender.unacknowledged, e ∈ old.sender.unacknowledged) :
    Numbering localUid (senders.insert q base) incarnations assigned := by
  refine h.mono fun q' state hl' => ?_
  rcases of_lookup_insert hl' with ⟨rfl, rfl⟩ | hl'
  · exact ⟨old, hl, h1, h2, h3, h4⟩
  · exact ⟨state, hl', rfl, rfl, rfl, fun _ he => he⟩

lemma restart (q : A) {base : ReliableSenderState A} (hnew : base.sender.remoteUid ∉ incarnations)
    (hlocal : base.sender.localUid = localUid) (hnext : base.sender.nextSequenceNr = 1)
    (hnil : base.sender.unacknowledged = []) :
    Numbering localUid (senders.insert q base) (insert base.sender.remoteUid incarnations)
      assigned := by
  have hold : ∀ q' state, senders.lookup q' = some state →
      state.sender.remoteUid ≠ base.sender.remoteUid := by
    intro q' state hl heq
    exact hnew (heq ▸ (h.sender q' state hl).2.1)
  refine { unique := h.unique, positive := h.positive, incarnation := ?_, sender := ?_, next := ?_,
           retained := ?_, apart := ?_ }
  · exact fun e he =>
      ⟨(h.incarnation e he).1, Finset.mem_insert_of_mem (h.incarnation e he).2⟩
  · intro q' state hl
    rcases of_lookup_insert hl with ⟨-, rfl⟩ | hl
    · exact ⟨hlocal, Finset.mem_insert_self _ _, hnext.ge⟩
    · obtain ⟨h1, h2, h3⟩ := h.sender q' state hl
      exact ⟨h1, Finset.mem_insert_of_mem h2, h3⟩
  · intro q' state hl e he hto
    rcases of_lookup_insert hl with ⟨-, rfl⟩ | hl
    · exact absurd (hto ▸ (h.incarnation e he).2) hnew
    · exact h.next q' state hl e he hto
  · intro q' state hl e he
    rcases of_lookup_insert hl with ⟨-, rfl⟩ | hl
    · rw [hnil] at he
      cases he
    · exact h.retained q' state hl e he
  · intro q1 q2 s1 s2 hl1 hl2 heq
    rcases of_lookup_insert hl1 with ⟨h1, e1⟩ | h1
    · rcases of_lookup_insert hl2 with ⟨h2, -⟩ | h2
      · exact h1.trans h2.symm
      · rw [e1] at heq
        exact absurd heq.symm (hold q2 s2 h2)
    · rcases of_lookup_insert hl2 with ⟨-, e2⟩ | h2
      · rw [e2] at heq
        exact absurd heq (hold q1 s1 h1)
      · exact h.apart q1 q2 s1 s2 h1 h2 heq

lemma touch (hl : senders.lookup q = some old) (heq : base.sender = old.sender) :
    Numbering localUid (senders.insert q base) (insert base.sender.remoteUid incarnations)
      assigned := by
  rw [heq, Finset.insert_eq_of_mem (h.sender q old hl).2.1]
  exact h.change hl (by rw [heq]) (by rw [heq]) (by rw [heq]) fun e he => by rwa [heq] at he

lemma retain {base state : ReliableSenderState A} (hl : senders.lookup q = some base)
    {envelope : RemoteEnvelope A} (hr : base.sender.retain envelope = .ok (state.sender, e)) :
    Numbering localUid (senders.insert q state) incarnations (assigned ++ [e]) := by
  obtain ⟨rfl, hs⟩ := retain_eq_ok hr
  obtain ⟨hlocal, hin, hpos⟩ := h.sender q base hl
  set e : ReliableSystemEnvelope A :=
    ⟨base.sender.localUid, base.sender.remoteUid, base.sender.nextSequenceNr, envelope⟩ with he
  have hmem : ∀ x ∈ assigned ++ [e], x ∈ assigned ∨ x = e := fun x hx =>
    (mem_append.mp hx).imp_right mem_singleton.mp
  have hfresh : ∀ x ∈ assigned, x.toUid = e.toUid → x.sequenceNr < e.sequenceNr :=
    fun x hx hto => h.next q base hl x hx hto
  have hcases : ∀ q' s, (senders.insert q state).lookup q' = some s →
      (q' = q ∧ s = state) ∨ (q' ≠ q ∧ senders.lookup q' = some s) := by
    intro q' s hl'
    rw [lookup_insert] at hl'
    split_ifs at hl' with hq
    · exact .inl ⟨hq, (some.inj hl').symm⟩
    · exact .inr ⟨hq, hl'⟩
  refine { unique := ?_, positive := ?_, incarnation := ?_, sender := ?_, next := ?_,
           retained := ?_, apart := ?_ }
  · intro x hx y hy hto hseq
    rcases hmem x hx with hx | rfl <;> rcases hmem y hy with hy | rfl
    · exact h.unique x hx y hy hto hseq
    · have := hfresh x hx hto
      omega
    · have := hfresh y hy hto.symm
      omega
    · rfl
  · intro x hx
    rcases hmem x hx with hx | rfl
    · exact h.positive x hx
    · exact hpos
  · intro x hx
    rcases hmem x hx with hx | rfl
    · exact h.incarnation x hx
    · exact ⟨hlocal, hin⟩
  · intro q' s hl'
    rcases hcases q' s hl' with ⟨-, rfl⟩ | ⟨-, hl'⟩
    · rw [hs]
      exact ⟨hlocal, hin, by dsimp only; omega⟩
    · exact h.sender q' s hl'
  · intro q' s hl' x hx hto
    rcases hcases q' s hl' with ⟨-, rfl⟩ | ⟨hq, hl'⟩
    · rw [hs] at hto ⊢
      rcases hmem x hx with hx | rfl
      · have := h.next q base hl x hx hto
        dsimp only
        omega
      · exact Nat.lt_succ_self _
    · rcases hmem x hx with hx | rfl
      · exact h.next q' s hl' x hx hto
      · -- another association numbers for another incarnation
        exact absurd (h.apart q' q s base hl' hl hto.symm) hq
  · intro q' s hl' x hx
    rcases hcases q' s hl' with ⟨-, rfl⟩ | ⟨-, hl'⟩
    · rw [hs] at hx
      rcases mem_append.mp hx with hx | hx
      · exact mem_append_left _ (h.retained q base hl x hx)
      · exact mem_append_right _ hx
    · exact mem_append_left _ (h.retained q' s hl' x hx)
  · have hsame : ∀ q' s, (senders.insert q state).lookup q' = some s →
        ∃ s', senders.lookup q' = some s' ∧ s'.sender.remoteUid = s.sender.remoteUid := by
      intro q' s hl'
      rcases hcases q' s hl' with ⟨rfl, rfl⟩ | ⟨-, hl'⟩
      · exact ⟨base, hl, by rw [hs]⟩
      · exact ⟨s, hl', rfl⟩
    intro q1 q2 s1 s2 hl1 hl2 heq
    obtain ⟨t1, ht1, e1⟩ := hsame q1 s1 hl1
    obtain ⟨t2, ht2, e2⟩ := hsame q2 s2 hl2
    exact h.apart q1 q2 t1 t2 ht1 ht2 (e1.trans (heq.trans e2.symm))

end

end Numbering

/-! ## Runs -/

/-- The senders are numbered, and only numbered envelopes were transmitted. -/
def Inv (w : ConcurrentRuntime A) : Prop := ∃ assigned,
  Numbering w.runtime.localUid w.runtime.senders w.incarnations assigned ∧
    ∀ e ∈ w.transmitted, e ∈ assigned

variable {w : ConcurrentRuntime A}

lemma mem_envelopesOf {frames : List (ReliableFrame A)} :
    e ∈ envelopesOf frames ↔ .envelope e ∈ frames := by
  unfold envelopesOf
  rw [mem_filterMap]
  constructor
  · rintro ⟨f, hf, hfe⟩
    cases f with
    | envelope x =>
      cases hfe
      exact hf
    | ack _ | nack _ => cases hfe
  · exact fun h => ⟨_, h, rfl⟩

variable [ToString A]

lemma Inv.send (h : Inv w) (now uid : ℕ) (raw : Except (RemoteError A) Unit)
    (envelope : RemoteEnvelope A)
    (hok : w.runtime.hasSender envelope.recipient uid = true ∨ uid ∉ w.incarnations) :
    let call := w.runtime.sendLocked now uid raw envelope
    ∃ assigned, Numbering call.runtime.localUid call.runtime.senders (insert uid w.incarnations)
        assigned ∧
      ∀ e ∈ w.transmitted ++ envelopesOf (call.frames.map (·.2)), e ∈ assigned := by
  obtain ⟨assigned, hn, ht⟩ := h
  dsimp only
  obtain ⟨base, state, hbase, rfl, hrt, hout⟩ := w.runtime.sendLocked_spec now uid raw envelope
    fun state hl => (hn.sender _ state hl).1
  have hstart : ∀ state : ReliableSenderState A, state.sender = base →
      Numbering w.runtime.localUid (w.runtime.senders.insert envelope.recipient state)
        (insert base.remoteUid w.incarnations) assigned := by
    rintro state rfl
    rcases hbase with ⟨old, hl, hold⟩ | ⟨hno, hlocal, hnext, hnil⟩
    · exact hn.touch hl hold.symm
    · have hnew : state.sender.remoteUid ∉ w.incarnations := by
        rcases hok with hok | hok
        · rw [hno] at hok
          cases hok
        · exact hok
      exact hn.restart envelope.recipient hnew hlocal hnext hnil
  rw [hrt]
  rcases hout with ⟨hs, hframes⟩ | ⟨e, hr, hframes⟩
  · refine ⟨assigned, hstart state hs, ?_⟩
    rw [hframes]
    intro e he
    rw [map_nil, mem_append] at he
    exact he.elim (ht e) fun he => absurd (mem_envelopesOf.mp he) not_mem_nil
  · refine ⟨assigned ++ [e], ?_, ?_⟩
    · have hret := (hstart ⟨base, now⟩ rfl).retain (Finmap.lookup_insert _) hr
      rwa [Finmap.insert_insert] at hret
    · intro x hx
      rcases mem_append.mp hx with hx | hx
      · exact mem_append_left _ (ht x hx)
      · obtain ⟨f, hf, hfx⟩ := mem_map.mp (mem_envelopesOf.mp hx)
        rw [hframes f hf] at hfx
        injection hfx with hfx
        subst hfx
        exact mem_concat_self

lemma exists_clearThrough {s s' : ReliableSystemSender A} {reply : ReliableFrame A} {n : ℕ}
    (h : replyTo s reply = .ok (s', n)) : s' = s ∨ ∃ m, s' = (s.clearThrough m).1 := by
  cases reply with
  | ack a => exact .inr ⟨_, congrArg Prod.fst (acknowledge_eq_ok h).symm⟩
  | nack a =>
    exact .inr ⟨_, congrArg Prod.fst (negativeAcknowledge_eq_ok h).symm⟩
  | envelope e => exact .inl (congrArg Prod.fst (Except.ok.inj h)).symm

lemma Inv.applyReplyLocked (h : Inv w) (now : ℕ) (q : A) (uid : ℕ) (reply : ReliableFrame A) :
    Inv (w.applyReplyLocked now q uid reply) := by
  unfold ConcurrentRuntime.applyReplyLocked
  cases hl : w.runtime.senders.lookup q with
  | none => exact h
  | some state =>
    dsimp only
    cases hr : replyTo state.sender reply with
    | error e => exact h
    | ok x =>
      obtain ⟨assigned, hn, ht⟩ := h
      refine ⟨assigned, ?_, ht⟩
      dsimp only
      rcases exists_clearThrough hr with hx | ⟨m, hx⟩
      all_goals rw [hx]
      · exact hn.change hl rfl rfl rfl fun _ he => he
      · exact hn.change hl rfl rfl rfl fun _ he => (dropWhile_sublist _).mem he

lemma Inv.retryLocked (h : Inv w) (q : A) (now accepted : ℕ) :
    Inv (w.retryLocked q now accepted) := by
  obtain ⟨assigned, hn, ht⟩ := h
  unfold ConcurrentRuntime.retryLocked
  cases hl : w.runtime.senders.lookup q with
  | none => exact ⟨assigned, hn, ht⟩
  | some state =>
    rw [map_some]
    unfold tickPlan
    split_ifs
    · exact ⟨assigned, hn, ht⟩
    · exact ⟨assigned, hn, ht⟩
    · refine ⟨assigned, hn, fun e he => ?_⟩
      rcases mem_append.mp he with he | he
      · exact ht e he
      · obtain ⟨x, hx, hxe⟩ := mem_map.mp (mem_envelopesOf.mp he)
        injection hxe with hxe
        subst hxe
        exact hn.retained q state hl x (mem_of_mem_take hx)

lemma Inv.step (h : Inv w) {a : Action A} {t : ConcurrentRuntime A} (hok : Careful w a)
    (ht : step w a = some t) : Inv t := by
  cases a with
  | connect q | close q reason | quarantine q reason => obtain rfl := some.inj ht; exact h
  | handshake q uid =>
    rw [ConcurrentRuntime.step] at ht
    split at ht
    · cases ht
      exact h
    · cases ht
  | lookup envelope =>
    rw [ConcurrentRuntime.step] at ht
    split_ifs at ht
    split at ht <;> (obtain rfl := some.inj ht; exact h)
  | send i now raw =>
    obtain ⟨⟨envelope, uid⟩, hs, rfl⟩ := map_eq_some_iff.mp ht
    exact h.send now uid raw envelope (hok _ hs)
  | receiveReply q reply =>
    rw [ConcurrentRuntime.step] at ht
    split at ht
    · split_ifs at ht <;> (obtain rfl := some.inj ht; exact h)
    · cases ht
      exact h
    · cases ht
  | applyReply i now =>
    obtain ⟨⟨q, uid, reply⟩, -, rfl⟩ := map_eq_some_iff.mp ht
    exact Inv.applyReplyLocked (w := { w with replying := w.replying.eraseIdx i }) h now q uid reply
  | invalidFrame q reason =>
    rw [ConcurrentRuntime.step] at ht
    split at ht <;> (obtain rfl := some.inj ht; exact h)
  | retry q now accepted =>
    cases ht
    exact h.retryLocked q now accepted
  | checkRefused i =>
    obtain ⟨⟨q, uid⟩, -, rfl⟩ := map_eq_some_iff.mp ht
    exact h
  | failAssociation i =>
    obtain ⟨⟨q, uid, reason⟩, -, rfl⟩ := map_eq_some_iff.mp ht
    exact h
  | removeSender i =>
    obtain ⟨q, -, rfl⟩ := map_eq_some_iff.mp ht
    obtain ⟨assigned, hn, ht⟩ := h
    exact ⟨assigned, hn.erase q, ht⟩

lemma Inv.start (localAddress : A) (localUid : ℕ) (manifests : List String)
    (settings : ReliableSystemDeliverySettings) :
    Inv (start localAddress localUid manifests settings) := by
  refine ⟨[], ⟨?_, ?_, ?_, ?_, ?_, ?_, ?_⟩, ?_⟩
  · rintro e ⟨⟩
  · rintro e ⟨⟩
  · rintro e ⟨⟩
  · rintro q state ⟨⟩
  · rintro q state ⟨⟩
  · rintro q state ⟨⟩
  · rintro q q' state state' ⟨⟩
  · rintro e ⟨⟩

/-- A receiver drops a transmitted envelope as a duplicate only after it has delivered it. -/
lemma Inv.delivered (h : Inv w) {es : List (ReliableSystemEnvelope A)}
    (hes : ∀ x ∈ es, x ∈ w.transmitted) (he : e ∈ w.transmitted) {uid fromUid : ℕ}
    {r : ReliableSystemReceiver}
    (hdup : ((ReliableSystemReceiver.new uid fromUid).feed es).1.receive e =
      .ok (r, .duplicate ack)) : e ∈ ((ReliableSystemReceiver.new uid fromUid).feed es).2 := by
  obtain ⟨assigned, hn, ht⟩ := h
  obtain ⟨⟨hl, hr⟩, hdel⟩ := exists_delivered es (.new uid fromUid)
  obtain ⟨⟨-, hto⟩, hlt⟩ := receive_eq_duplicate hdup
  obtain ⟨x, hx, hxes, ⟨-, hxto⟩, hseq⟩ := hdel e.sequenceNr (hn.positive e (ht e he)) hlt
  have hxe : x = e := hn.unique x (ht x (hes x hxes)) e (ht e he)
    (hxto.trans (hto.trans hl).symm) hseq
  exact hxe ▸ hx

/-- **Sequence numbers are not reused** in a run where the numbering for an incarnation starts once,
and no receiver takes an envelope for a duplicate that it has not delivered. -/
theorem sequence_numbers_unique {localAddress : A} {localUid : ℕ} {manifests : List String}
    {settings : ReliableSystemDeliverySettings}
    (hr : (machine localAddress localUid manifests settings).Reach Careful w) :
    (∀ e ∈ w.transmitted, ∀ e' ∈ w.transmitted,
      e.fromUid = e'.fromUid ∧ e.toUid = e'.toUid ∧ e.sequenceNr = e'.sequenceNr → e = e') ∧
    ∀ es : List (ReliableSystemEnvelope A), (∀ x ∈ es, x ∈ w.transmitted) →
      ∀ e ∈ w.transmitted, ∀ uid fromUid r ack,
        ((ReliableSystemReceiver.new uid fromUid).feed es).1.receive e = .ok (r, .duplicate ack) →
          e ∈ ((ReliableSystemReceiver.new uid fromUid).feed es).2 := by
  have hinv : Inv w := by
    refine hr.invariant ?_ fun s a t hs hok ht => hs.step hok ht
    rintro s rfl
    exact .start _ _ _ _
  refine ⟨?_, fun es hes e he uid fromUid r ack hdup => hinv.delivered hes he hdup⟩
  obtain ⟨assigned, hn, ht⟩ := hinv
  rintro e he e' he' ⟨-, hto, hseq⟩
  exact hn.unique e (ht e he) e' (ht e' he') hto hseq

end ConcurrentRuntime

namespace StaleLookup

open ConcurrentRuntime ConcurrentRuntime.Action

def runtime : Machine (ConcurrentRuntime Bool) (Action Bool) :=
  machine false 1 ["kairo.remote.watch-remote"] .default

def envelope (payload : UInt8) : RemoteEnvelope Bool := ⟨true, "kairo.remote.watch-remote", [payload]⟩

/-- **A stale UID restarts the numbering**: a send has looked up the UID 10 when a handshake changes
it to 20.  Another send numbers for 20, then the first one gets the lock and numbers for 10 again. -/
theorem stale_lookup : ∃ w : ConcurrentRuntime Bool, runtime.Reachable w ∧
    ⟨1, 10, 1, envelope 1⟩ ∈ w.transmitted ∧ ⟨1, 10, 1, envelope 2⟩ ∈ w.transmitted :=
  Machine.Reach.exists_of_exec
    [handshake true 10, lookup (envelope 1), send 0 0 (.ok ()), lookup (envelope 2),
      handshake true 20, lookup (envelope 3), send 1 1 (.ok ()), send 0 2 (.ok ())]
    rfl (by decide +kernel)

/-- Two sends of one incarnation overlap, then a handshake starts another one. -/
theorem numbers_two_incarnations : ∃ w : ConcurrentRuntime Bool,
    w.transmitted.map (fun e => (e.toUid, e.sequenceNr)) = [(10, 1), (10, 2), (20, 1)] ∧
    ∀ e ∈ w.transmitted, ∀ e' ∈ w.transmitted,
      e.fromUid = e'.fromUid ∧ e.toUid = e'.toUid ∧ e.sequenceNr = e'.sequenceNr → e = e' := by
  obtain ⟨w, hr, hw⟩ := Machine.Reach.exists_of_exec (M := runtime)
    (c := Careful)
    (P := fun w =>
      w.transmitted.map (fun e => (e.toUid, e.sequenceNr)) = [(10, 1), (10, 2), (20, 1)])
    [handshake true 10, lookup (envelope 1), lookup (envelope 2), send 1 0 (.ok ()),
      send 0 1 (.ok ()), handshake true 20, lookup (envelope 3), send 0 2 (.ok ())]
    rfl (by decide +kernel)
  exact ⟨w, hw, (sequence_numbers_unique hr).1⟩

end StaleLookup

end Kairo.Remote
