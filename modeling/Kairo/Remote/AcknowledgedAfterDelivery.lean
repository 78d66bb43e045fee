import Kairo.Remote.ReliableNetwork

/-!
# Envelopes are dropped only after delivery

Between any two addresses the runtimes run the protocol of `Link`: a careful step of the network takes
the link between two addresses through any number of steps of that protocol.  So the invariant of links
holds throughout careful runs, and what a sender drops because of a reply was handled before.
-/

namespace Kairo.Remote

open Kairo.Lib Relation ReliableNetwork RemoteAssociationRegistry ReliableSystemDeliveryRuntime List
  Function Set Link ReliableSystemSender ReliableWorld

variable {A : Type*}

/-! ## Halves of a link -/

namespace Link

/-- The sender's half after a call: `es` are the envelopes it sends, `ds` those it drops. -/
def withSender (l : Link A) (before after : Option (ReliableSenderState A))
    (es ds : Set (ReliableSystemEnvelope A)) : Link A :=
  { l with
    sender := after.map (·.sender)
    failed := l.failed ∨ (before.isSome = true ∧ after = none)
    envelopes := l.envelopes ∪ es
    dropped := l.dropped ∪ ds }

/-- The receiver's half after a call: `ns` are the numbers it replies, `xs` the deliveries it starts. -/
def withReceiver (l : Link A) (after : Option ReliableSystemReceiver) (ns : Set ℕ)
    (xs : Set (ReliableSystemEnvelope A × ℕ)) : Link A :=
  { l with
    receiver := after
    replies := l.replies ∪ ns
    delivering := l.delivering ∪ xs }

variable {l : Link A} {u v : ℕ} {before : Option (ReliableSenderState A)}
  {es ds : Set (ReliableSystemEnvelope A)} {after : Option (ReliableSenderState A)}
  {r : ReliableSystemReceiver}

lemma withSender_eq (hf : ¬ (before.isSome = true ∧ after = none)) :
    l.withSender before after es ds =
      { l with
        sender := after.map (·.sender)
        envelopes := l.envelopes ∪ es
        dropped := l.dropped ∪ ds } :=
  Link.ext rfl (propext (or_iff_left hf)) rfl rfl rfl rfl rfl rfl

lemma withSender_unchanged (hb : l.sender = before.map (·.sender)) (hes : es = ∅) (hds : ds = ∅) :
    l.withSender before before es ds = l := by
  have hf : ¬ (before.isSome = true ∧ before = none) := by
    rintro ⟨h1, h2⟩
    rw [h2] at h1
    cases h1
  rw [withSender_eq hf, hes, hds, union_empty, union_empty, ← hb]

lemma withReceiver_unchanged {after : Option ReliableSystemReceiver} {ns : Set ℕ}
    {xs : Set (ReliableSystemEnvelope A × ℕ)} (hr : l.receiver = after) (hns : ns = ∅) (hxs : xs = ∅) :
    l.withReceiver after ns xs = l := by
  subst hr hns hxs
  exact Link.ext rfl rfl rfl rfl (union_empty _) (union_empty _) rfl rfl

lemma forgets (hb : l.sender = before.map (·.sender)) (hes : es = ∅) (hds : ds = ∅) :
    ReflTransGen (Step u v) l (l.withSender before none es ds) := by
  cases before with
  | none => rw [withSender_unchanged hb hes hds]
  | some state =>
    refine .single ?_
    have he : l.withSender (some state) none es ds =
        { l with sender := none, failed := l.failed ∨ l.sender.isSome = true } := by
      subst hes hds
      refine Link.ext rfl (propext (or_congr_right ?_)) rfl (union_empty _) rfl rfl rfl
        (union_empty _)
      simp [hb]
    rw [he]
    exact .forget

lemma opens {base : ReliableSystemSender A} {capacity : ℕ} (hf : ¬ l.failed)
    (hb : base = l.sender.getD ⟨u, v, 1, capacity, []⟩) :
    ReflTransGen (Step u v) l { l with sender := some base } := by
  cases hl : l.sender with
  | none =>
    rw [hl] at hb
    subst hb
    exact .single (.create capacity hl hf)
  | some s =>
    rw [hl] at hb
    obtain rfl : base = s := hb
    rw [← hl]

lemma listens (hr : r = l.receiver.getD ⟨v, u, 1⟩) :
    ReflTransGen (Step u v) l { l with receiver := some r } := by
  cases hl : l.receiver with
  | none =>
    rw [hl] at hr
    subst hr
    exact .single (.listen hl)
  | some r' =>
    rw [hl] at hr
    obtain rfl : r = r' := hr
    rw [← hl]

lemma resends (hb : l.sender = before.map (·.sender)) (ha : after = before ∨ after = none)
    (hes : ∀ e ∈ es, ∃ state, before = some state ∧ e ∈ state.sender.unacknowledged)
    (hds : ds = ∅) :
    ReflTransGen (Step u v) l (l.withSender before after es ds) := by
  subst hds
  have hsend : ReflTransGen (Step u v) l { l with envelopes := l.envelopes ∪ es } := by
    cases before with
    | none =>
      have he : es = ∅ := eq_empty_of_forall_notMem fun e he => by
        obtain ⟨state, hs, -⟩ := hes e he
        cases hs
      rw [he, union_empty]
    | some state =>
      refine .single (.send hb fun e he => ?_)
      obtain ⟨state', hs, he⟩ := hes e he
      cases hs
      exact he
  refine hsend.trans ?_
  rcases ha with rfl | rfl
  · have heq : l.withSender after after es ∅ = { l with envelopes := l.envelopes ∪ es } := by
      have := withSender_unchanged (l := { l with envelopes := l.envelopes ∪ es }) hb rfl rfl
      rw [← this]
      exact Link.ext rfl rfl rfl (union_empty _).symm rfl rfl rfl rfl
    rw [heq]
  · have heq : l.withSender before none es ∅ =
        { l with envelopes := l.envelopes ∪ es }.withSender before none ∅ ∅ :=
      Link.ext rfl rfl rfl (union_empty _).symm rfl rfl rfl rfl
    rw [heq]
    exact forgets hb rfl rfl

end Link

variable [DecidableEq A]

/-! ## Links of a network -/

def ReliableWorld.link (w : ReliableWorld A) (p q : A) : Link A where
  sender := ((w.runtimes p).senders.lookup q).map (·.sender)
  failed := (p, q) ∈ w.failed
  receiver := (w.runtimes q).receivers.lookup p
  envelopes := {e | (p, q, .envelope e) ∈ w.channel}
  replies := {n | ∃ f, (q, p, f) ∈ w.channel ∧ f.replyNr = some n}
  delivering := {x | ∃ d, (q, d) ∈ w.delivering ∧ d.remote = p ∧ x = (d.reliable, d.ack.sequenceNr)}
  handled := {e | (p, q, e) ∈ w.handled}
  dropped := {e | (p, q, e) ∈ w.dropped}

namespace ReliableNetwork

variable {N : ReliableNetwork A} {w : ReliableWorld A} {p q : A}

/-- A call, with the deliveries it starts and the envelopes it drops. -/
def installed {α : Type*} (w : ReliableWorld A) (p : A) (call : RuntimeCall A α)
    (xs : List (A × Delivery A)) (ds : List (A × A × ReliableSystemEnvelope A)) : ReliableWorld A :=
  { install w p call with
    delivering := w.delivering ++ xs
    dropped := w.dropped ++ ds }

lemma setOf_mem_nil {β γ : Type*} {f : β → γ} : {x | f x ∈ ([] : List γ)} = ∅ :=
  eq_empty_of_forall_notMem fun _ hx => absurd hx not_mem_nil

lemma setOf_or_pos {β : Type*} {P : Prop} (h : P) {s : Set β} {t : β → Prop} :
    {x | x ∈ s ∨ P ∧ t x} = s ∪ {x | t x} := ext fun _ => or_congr_right (and_iff_right h)

lemma setOf_or_neg {β : Type*} {P : Prop} (h : ¬ P) {s : Set β} {t : β → Prop} :
    {x | x ∈ s ∨ P ∧ t x} = s := ext fun _ => or_iff_left fun hx => h hx.1

section Installed

variable {α : Type*} {call : RuntimeCall A α} (xs : List (A × Delivery A))
  (ds : List (A × A × ReliableSystemEnvelope A))
  (ht : (w.runtimes p).Touches call.runtime call.frames q)
  (hx : ∀ x ∈ xs, x.1 = p ∧ x.2.remote = q) (hd : ∀ d ∈ ds, d.1 = p ∧ d.2.1 = q)

lemma runtimes_installed :
    (installed w p call xs ds).runtimes = update w.runtimes p call.runtime := rfl

include ht

variable (a b : A)

lemma senders_installed :
    ((installed w p call xs ds).runtimes a).senders.lookup b =
      if a = p ∧ b = q then call.runtime.senders.lookup q else (w.runtimes a).senders.lookup b := by
  by_cases ha : a = p
  · subst ha
    rw [runtimes_installed, update_self]
    by_cases hb : b = q
    · rw [if_pos ⟨rfl, hb⟩, hb]
    · rw [if_neg fun h => hb h.2, ht.senders b hb]
  · rw [runtimes_installed, update_of_ne ha, if_neg fun h => ha h.1]

lemma receivers_installed :
    ((installed w p call xs ds).runtimes b).receivers.lookup a =
      if a = q ∧ b = p then call.runtime.receivers.lookup q
      else (w.runtimes b).receivers.lookup a := by
  by_cases hb : b = p
  · subst hb
    rw [runtimes_installed, update_self]
    by_cases ha : a = q
    · rw [if_pos ⟨ha, rfl⟩, ha]
    · rw [if_neg fun h => ha h.1, ht.receivers a ha]
  · rw [runtimes_installed, update_of_ne hb, if_neg fun h => hb h.2]

lemma mem_failed_installed :
    (a, b) ∈ (installed w p call xs ds).failed ↔ (a, b) ∈ w.failed ∨ (a = p ∧ b = q) ∧
      (((w.runtimes p).senders.lookup q).isSome = true ∧ call.runtime.senders.lookup q = none) := by
  have hkeys : b ∈ (w.runtimes p).senders.keys \ call.runtime.senders.keys ↔
      ((w.runtimes p).senders.lookup b).isSome = true ∧ call.runtime.senders.lookup b = none := by
    rw [Finset.mem_sdiff, Finmap.mem_keys, Finmap.mem_keys, FinMap.mem_iff_isSome,
      ← Finmap.lookup_eq_none]
  unfold installed install
  simp only [Finset.mem_union, Finset.mem_image, Prod.mk.injEq]
  refine or_congr_right ⟨?_, ?_⟩
  · rintro ⟨b', hb', rfl, rfl⟩
    have hb := hkeys.mp hb'
    by_cases hq : b' = q
    · subst hq
      exact ⟨⟨rfl, rfl⟩, hb⟩
    · rw [ht.senders b' hq] at hb
      rw [hb.2] at hb
      cases hb.1
  · rintro ⟨⟨rfl, rfl⟩, h⟩
    exact ⟨b, hkeys.mpr h, rfl, rfl⟩

lemma mem_channel_installed (f : ReliableFrame A) :
    (a, b, f) ∈ (installed w p call xs ds).channel ↔
      (a, b, f) ∈ w.channel ∨ (a = p ∧ b = q) ∧ (q, f) ∈ call.frames := by
  unfold installed install
  simp only [mem_append, mem_map, Prod.mk.injEq]
  refine or_congr_right ⟨?_, ?_⟩
  · rintro ⟨g, hg, rfl, rfl⟩
    obtain rfl : b = q := ht.frames (b, f) hg
    exact ⟨⟨rfl, rfl⟩, hg⟩
  · rintro ⟨⟨rfl, rfl⟩, hf⟩
    exact ⟨(b, f), hf, rfl, rfl⟩

variable (hs : ReflTransGen (Link.Step (N.uid p) (N.uid q)) (w.link p q)
    ((w.link p q).withSender ((w.runtimes p).senders.lookup q) (call.runtime.senders.lookup q)
      {e | (q, .envelope e) ∈ call.frames} {e | (p, q, e) ∈ ds}))
  (hr : ∀ l : Link A, l.receiver = (w.runtimes p).receivers.lookup q →
    l.delivering = (w.link q p).delivering → (w.link q p).envelopes ⊆ l.envelopes →
    ReflTransGen (Link.Step (N.uid q) (N.uid p)) l
      (l.withReceiver (call.runtime.receivers.lookup q)
        {n | ∃ f, (q, f) ∈ call.frames ∧ f.replyNr = some n}
        {x | ∃ d, (p, d) ∈ xs ∧ x = (d.reliable, d.ack.sequenceNr)}))

include hx hd hs hr

/-- **A call takes links through steps of the protocol**, if it does so for the sender's half of the
link it touches and for the receiver's half of the opposite link. -/
theorem links_installed (a b : A) : ReflTransGen (Link.Step (N.uid a) (N.uid b)) (w.link a b)
    ((installed w p call xs ds).link a b) := by
  have hdel : ∀ x, x ∈ ((installed w p call xs ds).link a b).delivering ↔
      x ∈ (w.link a b).delivering ∨ (a = q ∧ b = p) ∧
        ∃ d, (p, d) ∈ xs ∧ x = (d.reliable, d.ack.sequenceNr) := by
    intro x
    constructor
    · rintro ⟨d, hmem, hrem, rfl⟩
      rcases mem_append.mp hmem with hold | hnew
      · exact .inl ⟨d, hold, hrem, rfl⟩
      · obtain ⟨hb, hq⟩ := hx _ hnew
        subst hb
        exact .inr ⟨⟨hrem.symm.trans hq, rfl⟩, d, hnew, rfl⟩
    · rintro (⟨d, hmem, hrem, rfl⟩ | ⟨⟨rfl, rfl⟩, d, hmem, rfl⟩)
      · exact ⟨d, mem_append_left _ hmem, hrem, rfl⟩
      · exact ⟨d, mem_append_right _ hmem, (hx _ hmem).2, rfl⟩
  have hdrop : ∀ e, e ∈ ((installed w p call xs ds).link a b).dropped ↔
      e ∈ (w.link a b).dropped ∨ (a = p ∧ b = q) ∧ (p, q, e) ∈ ds := by
    intro e
    constructor
    · intro hmem
      rcases mem_append.mp hmem with hold | hnew
      · exact .inl hold
      · obtain ⟨ha, hb⟩ := hd _ hnew
        subst ha hb
        exact .inr ⟨⟨rfl, rfl⟩, hnew⟩
    · rintro (hmem | ⟨⟨rfl, rfl⟩, hmem⟩)
      · exact mem_append_left _ hmem
      · exact mem_append_right _ hmem
  -- first the sender's half of the link, then the receiver's half
  set l := if a = p ∧ b = q then (w.link a b).withSender ((w.runtimes p).senders.lookup q)
    (call.runtime.senders.lookup q) {e | (q, .envelope e) ∈ call.frames} {e | (p, q, e) ∈ ds}
    else w.link a b with hl
  have h1 : ReflTransGen (Link.Step (N.uid a) (N.uid b)) (w.link a b) l := by
    rw [hl]
    split_ifs with hab
    · obtain ⟨rfl, rfl⟩ := hab
      exact hs
    · exact .refl
  refine h1.trans ?_
  have h2 : (installed w p call xs ds).link a b =
      if a = q ∧ b = p then l.withReceiver (call.runtime.receivers.lookup q)
        {n | ∃ f, (q, f) ∈ call.frames ∧ f.replyNr = some n}
        {x | ∃ d, (p, d) ∈ xs ∧ x = (d.reliable, d.ack.sequenceNr)} else l := by
    have hsend := senders_installed xs ds ht a b
    have hrecv := receivers_installed xs ds ht a b
    have hfail := mem_failed_installed xs ds ht a b
    have henv := fun e => mem_channel_installed xs ds ht a b (.envelope e)
    have hrep : ∀ n, n ∈ ((installed w p call xs ds).link a b).replies ↔
        n ∈ (w.link a b).replies ∨ (a = q ∧ b = p) ∧
          ∃ f, (q, f) ∈ call.frames ∧ f.replyNr = some n := by
      intro n
      constructor
      · rintro ⟨f, hf, hn⟩
        rcases (mem_channel_installed xs ds ht b a f).mp hf with hf | ⟨hba, hf⟩
        · exact .inl ⟨f, hf, hn⟩
        · exact .inr ⟨⟨hba.2, hba.1⟩, f, hf, hn⟩
      · rintro (⟨f, hf, hn⟩ | ⟨hab, f, hf, hn⟩)
        · exact ⟨f, (mem_channel_installed xs ds ht b a f).mpr (.inl hf), hn⟩
        · exact ⟨f, (mem_channel_installed xs ds ht b a f).mpr (.inr ⟨⟨hab.2, hab.1⟩, hf⟩), hn⟩
    have hlink : (installed w p call xs ds).link a b =
        { sender := (if a = p ∧ b = q then call.runtime.senders.lookup q
            else (w.runtimes a).senders.lookup b).map (·.sender)
          failed := (a, b) ∈ w.failed ∨ (a = p ∧ b = q) ∧
            (((w.runtimes p).senders.lookup q).isSome = true ∧ call.runtime.senders.lookup q = none)
          receiver := if a = q ∧ b = p then call.runtime.receivers.lookup q
            else (w.runtimes b).receivers.lookup a
          envelopes := {e | e ∈ (w.link a b).envelopes ∨
            (a = p ∧ b = q) ∧ (q, .envelope e) ∈ call.frames}
          replies := {n | n ∈ (w.link a b).replies ∨ (a = q ∧ b = p) ∧
            ∃ f, (q, f) ∈ call.frames ∧ f.replyNr = some n}
          delivering := {x | x ∈ (w.link a b).delivering ∨ (a = q ∧ b = p) ∧
            ∃ d, (p, d) ∈ xs ∧ x = (d.reliable, d.ack.sequenceNr)}
          handled := (w.link a b).handled
          dropped := {e | e ∈ (w.link a b).dropped ∨ (a = p ∧ b = q) ∧ (p, q, e) ∈ ds} } := by
      refine Link.ext ?_ (propext hfail) hrecv (ext henv) (ext hrep) (ext hdel) rfl (ext hdrop)
      rw [← hsend]
      rfl
    rw [hlink, hl]
    split_ifs with hA hB hB
    · exact Link.ext rfl (propext (or_congr_right (and_iff_right hA))) rfl (setOf_or_pos hA)
        (setOf_or_pos hB) (setOf_or_pos hB) rfl (setOf_or_pos hA)
    · exact Link.ext rfl (propext (or_congr_right (and_iff_right hA))) rfl (setOf_or_pos hA)
        (setOf_or_neg hB) (setOf_or_neg hB) rfl (setOf_or_pos hA)
    · exact Link.ext rfl (propext (or_iff_left fun h => hA h.1)) rfl (setOf_or_neg hA)
        (setOf_or_pos hB) (setOf_or_pos hB) rfl (setOf_or_neg hA)
    · exact Link.ext rfl (propext (or_iff_left fun h => hA h.1)) rfl (setOf_or_neg hA)
        (setOf_or_neg hB) (setOf_or_neg hB) rfl (setOf_or_neg hA)
  rw [h2]
  split_ifs with hab
  · obtain ⟨rfl, rfl⟩ := hab
    refine hr l ?_ ?_ ?_
    all_goals
      rw [hl]
      split_ifs
    · rfl
    · rfl
    · rfl
    · rfl
    · exact subset_union_left
    · exact subset_rfl
  · exact .refl

structure Inv (N : ReliableNetwork A) (w : ReliableWorld A) : Prop where
  localUid : ∀ p, (w.runtimes p).localUid = N.uid p
  uid : ∀ p q u, (w.runtimes p).associations.uidForAddress q = some u → u = N.uid q
  links : ∀ p q, ∃ retained, Link.Inv (N.uid p) (N.uid q) retained (w.link p q)

/-- A call keeps the invariant if it takes both halves through steps of the protocol. -/
lemma Inv.installed_call (h : Inv N w) : Inv N (installed w p call xs ds) := by
  refine ⟨fun a => ?_, fun a b u hu => ?_, fun a b =>
    Link.Inv.steps (h.links a b) (links_installed xs ds ht hx hd hs hr a b)⟩
  · rw [runtimes_installed]
    by_cases ha : a = p
    · subst ha
      rw [update_self, ht.localUid]
      exact h.localUid a
    · rw [update_of_ne ha]
      exact h.localUid a
  · rw [runtimes_installed] at hu
    by_cases ha : a = p
    · subst ha
      rw [update_self] at hu
      exact h.uid a b u (ht.uid b u hu)
    · rw [update_of_ne ha] at hu
      exact h.uid a b u hu

end Installed

lemma installed_nil {α : Type*} (w : ReliableWorld A) (p : A) (call : RuntimeCall A α) :
    installed w p call [] [] = install w p call := by
  simp [installed, install]

/-! ## Careful steps -/

namespace Inv

variable (h : Inv N w)

include h

lemma sender_remoteUid {state : ReliableSenderState A}
    (hs : (w.runtimes p).senders.lookup q = some state) : state.sender.remoteUid = N.uid q := by
  obtain ⟨retained, hl⟩ := h.links p q
  have : (w.link p q).sender = some state.sender := by
    rw [link, hs]
    rfl
  exact (hl.sender _ this).1.2

lemma receiver_remoteUid (hr : (w.runtimes p).receivers.lookup q = some r) :
    r.remoteUid = N.uid q := by
  obtain ⟨retained, hl⟩ := h.links q p
  exact (hl.receiver r hr).1

lemma senderCall {α : Type*} {call : RuntimeCall A α}
    (ds : List (A × A × ReliableSystemEnvelope A))
    (ht : (w.runtimes p).Touches call.runtime call.frames q)
    (hrecv : call.runtime.receivers = (w.runtimes p).receivers)
    (hf : ∀ f ∈ call.frames, ∃ e, f.2 = .envelope e) (hd : ∀ d ∈ ds, d.1 = p ∧ d.2.1 = q)
    (hs : ReflTransGen (Link.Step (N.uid p) (N.uid q)) (w.link p q)
      ((w.link p q).withSender ((w.runtimes p).senders.lookup q) (call.runtime.senders.lookup q)
        {e | (q, .envelope e) ∈ call.frames} {e | (p, q, e) ∈ ds})) :
    Inv N (installed w p call [] ds) := by
  refine h.installed_call [] ds ht (fun x hx => absurd hx not_mem_nil) hd hs fun l hl _ _ => ?_
  rw [withReceiver_unchanged (by rw [hrecv, hl])]
  · refine eq_empty_of_forall_notMem ?_
    rintro n ⟨f, hmem, hn⟩
    obtain ⟨e, he⟩ := hf _ hmem
    rw [show f = .envelope e from he] at hn
    cases hn
  · refine eq_empty_of_forall_notMem ?_
    rintro x ⟨d, hmem, -⟩
    exact absurd hmem not_mem_nil

variable (now : ℕ)

lemma send [ToString A] (raw : Except (RemoteError A) Unit) (envelope : RemoteEnvelope A)
    (hf : (p, envelope.recipient) ∉ w.failed) :
    Inv N (install w p ((w.runtimes p).sendSelected now raw envelope)) := by
  obtain ⟨⟨ht, hrecv⟩, hcases⟩ := (w.runtimes p).sendSelected_cases now (h.uid p envelope.recipient)
    raw envelope rfl fun state hs => h.sender_remoteUid hs
  set q := envelope.recipient
  set call := (w.runtimes p).sendSelected now raw envelope
  have hbase : (w.runtimes p).baseSender q (N.uid q) = (w.link p q).sender.getD
      ⟨N.uid p, N.uid q, 1, (w.runtimes p).settings.bufferCapacity, []⟩ := by
    rw [← h.localUid p]
    rfl
  have hopen := opens hf hbase
  have hnil : ∀ {frames : List (A × ReliableFrame A)}, frames = [] →
      {e | (q, ReliableFrame.envelope e) ∈ frames} = ∅ := by
    rintro _ rfl
    exact setOf_mem_nil
  have hds : {e | (p, q, e) ∈ ([] : List (A × A × ReliableSystemEnvelope A))} = ∅ := setOf_mem_nil
  rw [← installed_nil]
  refine h.senderCall [] ht hrecv (fun f hmem => ?_) (fun d hd => absurd hd not_mem_nil) ?_
  · rcases hcases with ⟨-, hfr⟩ | ⟨_, _, _, hfr⟩ | ⟨_, e, _, _, hfr⟩ | ⟨-, hfr⟩
    · rw [hfr] at hmem; cases hmem
    · rw [hfr] at hmem; cases hmem
    · exact ⟨e, congrArg Prod.snd (hfr f hmem)⟩
    · rw [hfr] at hmem; cases hmem
  · rcases hcases with ⟨hrt, hfr⟩ | ⟨state, hst, hsb, hfr⟩ | ⟨state, e, hst, hret, hfr⟩ | ⟨hst, hfr⟩
    · rw [hrt, withSender_unchanged rfl (hnil hfr) hds]
    · rw [hst, withSender_eq (fun hn => by cases hn.2), hnil hfr, hds, union_empty,
        union_empty, Option.map_some, hsb]
      exact hopen
    · -- the envelope is retained, and sent if the raw outbound takes it
      have he : e ∈ state.sender.unacknowledged := by
        obtain ⟨rfl, hs'⟩ := retain_eq_ok hret
        rw [hs']
        exact mem_append_right _ mem_cons_self
      rw [hst, withSender_eq (fun hn => by cases hn.2), hds, union_empty, Option.map_some]
      refine (hopen.tail (.retain rfl hret)).tail (.send rfl fun e' he' => ?_)
      cases hfr _ he'
      exact he
    · rw [hst]
      exact forgets rfl (hnil hfr) hds

lemma retry (p q : A) (accepted : ℕ) :
    Inv N (install w p ((w.runtimes p).retryOne now q accepted)) := by
  obtain ⟨⟨ht, hrecv⟩, hlook, hframes⟩ := (w.runtimes p).retryOne_cases now q accepted
  rw [← installed_nil]
  refine h.senderCall [] ht hrecv (fun f hf => ?_) (fun d hd => absurd hd not_mem_nil) ?_
  · obtain ⟨-, e, -, -, rfl⟩ := hframes f hf
    exact ⟨e, rfl⟩
  · refine resends rfl hlook (fun e he => ?_) setOf_mem_nil
    obtain ⟨state, e', hs, he', heq⟩ := hframes _ he
    cases heq
    exact ⟨state, hs, he'⟩

lemma reply [ToString A] (now : ℕ) (p q : A) (kind : String) (fromUid n : ℕ)
    (apply : ReliableSystemSender A → Except (RemoteError A) (ReliableSystemSender A × ℕ))
    (hn : n ∈ (w.link p q).replies)
    (ha : ∀ s s' k, apply s = .ok (s', k) → s.clearThrough n = (s', k)) :
    let call := (w.runtimes p).validateRemoteUid q fromUid
      ((w.runtimes p).applyReply now q kind apply)
    Inv N (installed w p call [] (droppedBy (w.runtimes p) p q call)) := by
  intro call
  obtain ⟨⟨ht, hrecv, hframes⟩, hcases⟩ := (w.runtimes p).reply_cases now q kind fromUid apply
  refine h.senderCall _ ht hrecv (fun f hf => ?_) (fun d hd => ?_) ?_
  · rw [hframes] at hf
    cases hf
  · unfold droppedBy at hd
    split at hd
    · obtain ⟨e, -, rfl⟩ := mem_map.mp hd
      exact ⟨rfl, rfl⟩
    · cases hd
  have hes : {e | (q, ReliableFrame.envelope e) ∈ call.frames} = ∅ := by
    rw [hframes]
    exact setOf_mem_nil
  rcases hcases with ⟨⟨e, he⟩, hlook⟩ | ⟨state, s', k, hstate, happly, hlook, hres⟩
  · have hds : droppedBy (w.runtimes p) p q call = [] := by
      unfold droppedBy
      rw [he]
    rw [hds, hes]
    exact resends rfl hlook (fun e he => he.elim) setOf_mem_nil
  · have hclear := ha _ _ _ happly
    have hds : droppedBy (w.runtimes p) p q call =
        (state.sender.unacknowledged.take k).map fun e => (p, q, e) := by
      unfold droppedBy
      rw [hres, hstate]
    have hset : {e | (p, q, e) ∈ droppedBy (w.runtimes p) p q call} =
        {e | e ∈ state.sender.unacknowledged.take (state.sender.clearThrough n).2} := by
      rw [hds, hclear]
      ext e
      simp only [mem_map, Prod.mk.injEq, true_and, exists_eq_right, mem_ofPred_eq]
    rw [hset, hes, hlook, withSender_eq (fun hn => by cases hn.2), union_empty]
    refine .single ?_
    have hs : some s' = some (state.sender.clearThrough n).1 := by rw [hclear]
    rw [Option.map_some, hs]
    refine .acknowledge ?_ hn
    rw [link, hstate]
    rfl

lemma envelope [ToString A] (p q : A) (reliable : ReliableSystemEnvelope A)
    (hmem : (q, p, .envelope reliable) ∈ w.channel)
    (hidle : ∀ d ∈ w.delivering, d.1 = p → d.2.remote ≠ q) :
    let call := (w.runtimes p).receiveReliable q reliable
    Inv N (installed w p call (started p call) []) := by
  intro call
  obtain ⟨ht, hlook, hcases⟩ := (w.runtimes p).receiveReliable_cases (h.uid p q) reliable
    fun r hr => h.receiver_remoteUid hr
  have hempty : (w.link q p).delivering = ∅ := by
    refine eq_empty_of_forall_notMem ?_
    rintro x ⟨d, hd, hrem, -⟩
    exact hidle _ hd rfl hrem
  have hstarted : started p call = [] ∨ ∃ d : Delivery A, started p call = [(p, d)] ∧ d.remote = q ∧
      d.reliable = reliable ∧ d.ack.sequenceNr = reliable.sequenceNr ∧ call.result = .ok (some d) := by
    unfold started
    rcases hcases with ⟨⟨e, he⟩, -⟩ | ⟨he, -⟩ | ⟨he, -⟩
    · exact .inl (by rw [he])
    · exact .inr ⟨_, by rw [he], rfl, rfl, rfl, he⟩
    · exact .inl (by rw [he])
  refine h.installed_call (started p call) [] ht (fun x hx => ?_)
    (fun d hd => absurd hd not_mem_nil) ?_ ?_
  · rcases hstarted with hst | ⟨d, hst, hrem, -⟩
    · rw [hst] at hx
      cases hx
    · rw [hst] at hx
      obtain rfl := mem_singleton.mp hx
      exact ⟨rfl, hrem⟩
  · refine resends rfl hlook (fun e he => ?_) setOf_mem_nil
    -- the answers are no envelopes
    have hmem' : (q, ReliableFrame.envelope e) ∈ call.frames := he
    rcases hcases with ⟨-, hfr, -⟩ | ⟨-, hfr, -⟩ | ⟨-, -, f, hfr, hn⟩
    · rw [hfr] at hmem'; cases hmem'
    · rw [hfr] at hmem'; cases hmem'
    · rw [hfr] at hmem'
      have heq := mem_singleton.mp hmem'
      injection heq with _ heq
      rw [← heq] at hn
      cases hn
  · intro l hrecv hdel henv
    have hlisten : ReflTransGen (Link.Step (N.uid q) (N.uid p)) l
        { l with receiver := some ((w.runtimes p).baseReceiver q (N.uid q)) } := by
      refine listens ?_
      rw [hrecv, ← h.localUid p]
      rfl
    have hidle' : l.delivering = ∅ := hdel.trans hempty
    have hnoreply : {n | ∃ f, (q, f) ∈ ([] : List (A × ReliableFrame A)) ∧
        f.replyNr = some n} = ∅ := by simp
    have hnodelivery : {x | ∃ d, (p, d) ∈ ([] : List (A × Delivery A)) ∧
        x = (d.reliable, d.ack.sequenceNr)} = ∅ := by simp
    rcases hcases with ⟨⟨e, he⟩, hfr, hlook⟩ | ⟨hres, hfr, hseq, hlook⟩ | ⟨hres, hlook, f, hfr, hn⟩
    · have hst : started p call = [] := by rw [started, he]
      rw [hfr, hst, hnoreply, hnodelivery]
      rcases hlook with hlook | hlook
      · rw [withReceiver_unchanged (by rw [hlook, hrecv]) rfl rfl]
      · have heq : l.withReceiver (some ((w.runtimes p).baseReceiver q (N.uid q))) ∅ ∅ =
            { l with receiver := some ((w.runtimes p).baseReceiver q (N.uid q)) } :=
          Link.ext rfl rfl rfl rfl (union_empty _) (union_empty _) rfl rfl
        rw [hlook, heq]
        exact hlisten
    · have hst : {x | ∃ d, (p, d) ∈ started p call ∧ x = (d.reliable, d.ack.sequenceNr)} =
          {(reliable, reliable.sequenceNr)} := by
        rw [started, hres]
        ext x
        simp
      have heq : ∀ r, l.withReceiver (some r) ∅ {(reliable, reliable.sequenceNr)} =
          { l with receiver := some r, delivering := {(reliable, reliable.sequenceNr)} } := fun r =>
        Link.ext rfl rfl rfl rfl (union_empty _) (by rw [Link.withReceiver, hidle']; simp) rfl rfl
      rw [hfr, hst, hlook, hnoreply, heq]
      exact hlisten.tail (.deliver hidle' rfl (henv hmem) hseq)
    · have hst : started p call = [] := by rw [started, hres]
      have hns : {n | ∃ f', (q, f') ∈ [(q, f)] ∧ f'.replyNr = some n} =
          {((w.runtimes p).baseReceiver q (N.uid q)).nextExpectedSequenceNr - 1} := by
        ext n
        simp [hn, eq_comm]
      have heq : l.withReceiver (some ((w.runtimes p).baseReceiver q (N.uid q)))
          {((w.runtimes p).baseReceiver q (N.uid q)).nextExpectedSequenceNr - 1} ∅ =
          { l with
            receiver := some ((w.runtimes p).baseReceiver q (N.uid q))
            replies := insert (((w.runtimes p).baseReceiver q (N.uid q)).nextExpectedSequenceNr - 1)
              l.replies } :=
        Link.ext rfl rfl rfl rfl union_singleton (union_empty _) rfl rfl
      rw [hfr, hst, hlook, hns, hnodelivery, heq]
      exact hlisten.tail (.answer hidle' rfl)

lemma finish {i : ℕ} {q : A} {d : Delivery A} (hi : w.delivering[i]? = some (q, d)) :
    Inv N { w with
      delivering := w.delivering.eraseIdx i
      channel := w.channel ++ (finishDelivery d true).map fun f => (q, f)
      handled := w.handled ++ [(d.remote, q, d.reliable)] } := by
  set w' : ReliableWorld A := { w with
    delivering := w.delivering.eraseIdx i
    channel := w.channel ++ (finishDelivery d true).map fun f => (q, f)
    handled := w.handled ++ [(d.remote, q, d.reliable)] } with hw'
  have hchan : ∀ a b f, (a, b, f) ∈ w'.channel ↔
      (a, b, f) ∈ w.channel ∨ (a, b, f) = (q, d.remote, .ack d.ack) := by
    intro a b f
    simp [hw', finishDelivery]
  have hkept : ∀ {x}, x ∈ w.delivering → x ∈ w'.delivering ∨ x = (q, d) := by
    intro x hx
    obtain ⟨j, hj⟩ := getElem?_of_mem hx
    by_cases hji : j = i
    · subst hji
      rw [hi] at hj
      exact .inr (Option.some.inj hj).symm
    · exact .inl (mem_eraseIdx_iff_getElem?.mpr ⟨j, hji, hj⟩)
  have hsub : ∀ {x}, x ∈ w'.delivering → x ∈ w.delivering := fun hx =>
    (eraseIdx_sublist _ _).subset hx
  refine ⟨h.localUid, h.uid, fun a b => Link.Inv.steps (h.links a b) ?_⟩
  have henv : (w'.link a b).envelopes = (w.link a b).envelopes := by
    ext e
    refine (hchan a b _).trans (or_iff_left ?_)
    simp
  by_cases hab : a = d.remote ∧ b = q
  · obtain ⟨rfl, rfl⟩ := hab
    have heq : w'.link d.remote b = { w.link d.remote b with
        delivering := (w'.link d.remote b).delivering
        replies := insert (d.reliable, d.ack.sequenceNr).2 (w.link d.remote b).replies
        handled := insert (d.reliable, d.ack.sequenceNr).1 (w.link d.remote b).handled } := by
      refine Link.ext rfl rfl rfl henv ?_ rfl ?_ rfl
      · ext n
        constructor
        · rintro ⟨f, hf, hn⟩
          rcases (hchan _ _ _).mp hf with hf | hf
          · exact .inr ⟨f, hf, hn⟩
          · injection hf with _ hf
            injection hf with _ hf
            rw [hf] at hn
            exact .inl (Option.some.inj hn).symm
        · rintro (rfl | ⟨f, hf, hn⟩)
          · exact ⟨.ack d.ack, (hchan _ _ _).mpr (.inr rfl), rfl⟩
          · exact ⟨f, (hchan _ _ _).mpr (.inl hf), hn⟩
      · ext e
        simp [link, hw', or_comm]
    rw [heq]
    refine .single (.finish ⟨d, mem_of_getElem? hi, rfl, rfl⟩ ?_ ?_)
    · rintro x ⟨d', hd', hrem, rfl⟩
      exact ⟨d', hsub hd', hrem, rfl⟩
    · rintro x ⟨d', hd', hrem, rfl⟩
      rcases hkept hd' with hd' | hd'
      · exact .inr ⟨d', hd', hrem, rfl⟩
      · injection hd' with _ hd'
        subst hd'
        exact .inl rfl
  · have heq : w'.link a b = w.link a b := by
      refine Link.ext rfl rfl rfl henv ?_ ?_ ?_ rfl
      · ext n
        refine exists_congr fun f => and_congr_left fun _ => (hchan b a f).trans (or_iff_left ?_)
        rintro hf
        injection hf with hb hf
        injection hf with ha _
        exact hab ⟨ha, hb⟩
      · ext x
        constructor
        · rintro ⟨d', hd', hrem, rfl⟩
          exact ⟨d', hsub hd', hrem, rfl⟩
        · rintro ⟨d', hd', hrem, rfl⟩
          rcases hkept hd' with hd' | hd'
          · exact ⟨d', hd', hrem, rfl⟩
          · injection hd' with hb hd'
            exact absurd ⟨hrem.symm.trans (congrArg Delivery.remote hd'), hb⟩ hab
      · ext e
        refine mem_append.trans (or_iff_left ?_)
        intro he
        have he' := mem_singleton.mp he
        injection he' with ha he'
        injection he' with hb _
        exact hab ⟨ha, hb⟩
    rw [heq]

/-- A change of a registry that gives no address another UID. -/
lemma withAssociations {associations : RemoteAssociationRegistry A}
    (hu : ∀ q u, associations.uidForAddress q = some u → u = N.uid q) :
    Inv N (ReliableNetwork.withAssociations w p associations) := by
  set w' := ReliableNetwork.withAssociations w p associations with hw'
  have hp : ∀ a, w'.runtimes a = w.runtimes a ∨
      a = p ∧ w'.runtimes a = { w.runtimes p with associations } := by
    intro a
    by_cases ha : a = p
    · subst ha
      exact .inr ⟨rfl, update_self ..⟩
    · exact .inl (update_of_ne ha ..)
  refine ⟨fun a => ?_, fun a b u hab => ?_, fun a b => ?_⟩
  · rcases hp a with heq | ⟨rfl, heq⟩ <;> rw [heq] <;> exact h.localUid a
  · rcases hp a with heq | ⟨rfl, heq⟩ <;> rw [heq] at hab
    · exact h.uid a b u hab
    · exact hu b u hab
  · have hsenders : (w'.runtimes a).senders = (w.runtimes a).senders := by
      rcases hp a with heq | ⟨rfl, heq⟩ <;> rw [heq]
    have hreceivers : (w'.runtimes b).receivers = (w.runtimes b).receivers := by
      rcases hp b with heq | ⟨rfl, heq⟩ <;> rw [heq]
    have heq : w'.link a b = w.link a b := by
      unfold link
      rw [hsenders, hreceivers]
      rfl
    rw [heq]
    exact h.links a b

end Inv

lemma inv_start : Inv N N.start where
  localUid _ := rfl
  uid p q u hu := by cases hu
  links p q := by
    refine ⟨[], fun i e he => ?_, ?_, fun _ _ => rfl, ?_, ?_, ?_, ?_, ?_⟩
    · simp at he
    · rintro s ⟨⟩
    · exact fun e he => absurd he not_mem_nil
    · rintro r ⟨⟩
    · rintro d ⟨d', hd', -⟩
      exact absurd hd' not_mem_nil
    · rintro n ⟨f, hf, -⟩
      exact absurd hf not_mem_nil
    · exact fun e he => absurd he not_mem_nil

variable [ToString A]

lemma Inv.receiveFrame (h : Inv N w) {p q : A} (now : ℕ) {streamId : RemoteStreamId}
    {frame : ReliableFrame A} (hmem : (q, p, frame) ∈ w.channel)
    (hc : Careful w (.receive p q now streamId frame)) :
    Inv N (receiveFrame w p q now frame) := by
  cases frame with
  | envelope reliable =>
    have hcall := h.envelope p q reliable hmem hc
    simp only [installed, append_nil] at hcall
    exact hcall
  | ack ack =>
    have hcall := h.reply now p q "ack" ack.fromUid ack.sequenceNr (·.acknowledge ack)
      ⟨_, hmem, rfl⟩ fun s s' k => acknowledge_eq_ok
    simp only [installed, append_nil] at hcall
    exact hcall
  | nack nack =>
    have hcall := h.reply now p q "nack" nack.fromUid nack.highestContiguousSequenceNr
      (·.negativeAcknowledge nack) ⟨_, hmem, rfl⟩
      fun s s' k => negativeAcknowledge_eq_ok
    simp only [installed, append_nil] at hcall
    exact hcall

lemma inv_step {w' : ReliableWorld A} {a : Action A} (h : Inv N w) (hc : Careful w a)
    (hs : N.step w a = some w') : Inv N w' := by
  cases a with
  | connect p q =>
    cases hs
    exact h.withAssociations fun q' u hu =>
      h.uid p q' u (quiet_association.uid hu)
  | handshake p q =>
    simp only [step] at hs
    split at hs
    next associations hok =>
      cases hs
      refine h.withAssociations fun q' u hu => ?_
      rw [uidForAddress_completeHandshake hok] at hu
      split_ifs at hu with hq
      · cases hu
        rw [hq]
      · exact h.uid p q' u hu
    next => cases hs
  | close p q reason =>
    cases hs
    exact h.withAssociations fun q' u hu => h.uid p q' u (quiet_close.uid hu)
  | quarantine p q reason =>
    cases hs
    refine h.withAssociations fun q' u hu => h.uid p q' u (quiet_modify (fun s _ u => ?_) |>.uid hu)
    exact ⟨id, fun reason' hq => ⟨reason, by rw [hq]; rfl⟩⟩
  | send p now raw envelope =>
    cases hs
    exact h.send now raw envelope hc
  | receive p q now streamId frame =>
    simp only [step] at hs
    split_ifs at hs with hmem
    split at hs <;> cases hs
    · exact h.receiveFrame now hmem hc
    · exact h
  | finish i ok =>
    obtain ⟨⟨q, d⟩, hi, rfl⟩ := Option.map_eq_some_iff.mp hs
    obtain rfl : ok = true := hc
    exact h.finish hi
  | retry p q now accepted =>
    cases hs
    exact h.retry now p q accepted

/-- **What a sender drops was handled.** In a run where handlers succeed, an envelope is
classified only when no delivery of its association is in progress, and nothing is sent to an
association whose sender state was removed, every envelope that leaves the unacknowledged queue
because of a reply was handled by the system it was sent to. -/
theorem dropped_handled {w : ReliableWorld A} (hw : N.machine.Reach Careful w) {p q : A}
    {e : ReliableSystemEnvelope A} (he : (p, q, e) ∈ w.dropped) : (p, q, e) ∈ w.handled := by
  have hinv : Inv N w := hw.invariant
    (fun w hw => by subst hw; exact inv_start) fun w a w' h hc hs => inv_step h hc hs
  obtain ⟨retained, hl⟩ := hinv.links p q
  exact hl.dropped e he

end ReliableNetwork

namespace TwoSystems

open ReliableNetwork ReliableNetwork.Action

/-- System `false` watches an actor of system `true`. -/
def network : ReliableNetwork Bool where
  uid p := if p then 2 else 1
  manifests _ := ["kairo.remote.watch-remote"]
  settings _ := .default

def watch : RemoteEnvelope Bool := ⟨true, "kairo.remote.watch-remote", [1]⟩

def watchEnvelope : ReliableSystemEnvelope Bool := ⟨1, 2, 1, watch⟩

def watchAck : ReliableSystemAck := ⟨2, 1, 1⟩

/-- A retry crosses the first delivery, which the handler accepts or not. -/
def retried (accepts : Bool) : List (Action Bool) :=
  [handshake false true, handshake true false, send false 0 (.ok ()) watch,
    receive true false 1 .control (.envelope watchEnvelope), finish 0 accepts,
    retry false true 600 1, receive true false 601 .control (.envelope watchEnvelope),
    receive false true 602 .control (.ack watchAck)]

/-- The handler fails on the only delivery.  The retry is classified as a duplicate, its ack makes
the sender drop the envelope, and no handler has accepted it. -/
theorem dropped_not_handled : ∃ w : ReliableWorld Bool, network.machine.Reachable w ∧
    decide ((false, true, watchEnvelope) ∈ w.dropped ∧ w.handled = []) = true :=
  Machine.Reach.exists_of_exec (retried false) rfl (by decide +kernel)

/-- The handler succeeds; the retry that crosses the first ack is answered as a duplicate. -/
theorem dropped_handled_twoSystems : ∃ w : ReliableWorld Bool,
    network.machine.Reach Careful w ∧ (false, true, watchEnvelope) ∈ w.dropped ∧
      (false, true, watchEnvelope) ∈ w.handled := by
  obtain ⟨w, hr, he⟩ : ∃ w : ReliableWorld Bool, network.machine.Reach Careful w ∧
      (false, true, watchEnvelope) ∈ w.dropped :=
    Machine.Reach.exists_of_exec (retried true) rfl (by decide +kernel)
  exact ⟨w, hr, he, dropped_handled hr he⟩

end TwoSystems

end Kairo.Remote
