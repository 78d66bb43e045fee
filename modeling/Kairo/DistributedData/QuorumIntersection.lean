import Kairo.DistributedData.Aggregation
import Kairo.DistributedData.MergeOrder
import Kairo.Lib.Machine

/-!
# Majority writes and majority reads

One write and a later read of the same key over the same replicas.  The replicas take the write, serve
the read and change otherwise in any order; replies are repeated, lost and mixed with those of
strangers.  A majority write and a majority read share a replica.  As long as the states of the
replicas only grow, and no replica that takes the write has heard that a part of it was pruned, the read
returns at least what was written.
-/

namespace Kairo.DistributedData

open Kairo.Lib DeltaReplicatedData RemovedNodePruning ReadAggregatorState Finset Option

/-! ## Majorities -/

/-- A majority is more than half, and never more than all. -/
lemma calculateMajority_bounds (minCap additional : ℕ) {n : ℕ} (hn : 0 < n) :
    n < 2 * calculateMajority minCap n additional ∧ calculateMajority minCap n additional ≤ n := by
  unfold calculateMajority
  omega

def WriteConsistency.IsMajority : WriteConsistency → Prop
  | .majority _ | .majorityPlus _ _ => True
  | _ => False

def ReadConsistency.IsMajority : ReadConsistency → Prop
  | .majority _ | .majorityPlus _ _ => True
  | _ => False

/-- The required remote replicas can be met, and with the local one they are a majority. -/
lemma remoteMajority_bounds (remoteCount minCap additional : ℕ) :
    calculateMajority minCap (remoteCount + 1) additional - 1 ≤ remoteCount ∧
      remoteCount + 1 < 2 * (calculateMajority minCap (remoteCount + 1) additional - 1 + 1) := by
  have h := calculateMajority_bounds minCap additional (Nat.zero_lt_succ remoteCount)
  rw [Nat.succ_eq_add_one] at h
  omega

lemma requiredRemoteWriteAcks_of_le {consistency : WriteConsistency} {remoteCount required : ℕ}
    (h : requiredRemoteCountForWrite consistency remoteCount = .ok required)
    (hle : required ≤ remoteCount) :
    requiredRemoteWriteAcks consistency remoteCount = .ok required := by
  have hensure : ensureAvailable required remoteCount = .ok () := if_pos hle
  simp only [requiredRemoteWriteAcks, h, hensure, bind, Except.bind]
  rfl

lemma requiredRemoteWriteAcks_majority {consistency : WriteConsistency} (h : consistency.IsMajority)
    (remoteCount : ℕ) : ∃ required, requiredRemoteWriteAcks consistency remoteCount = .ok required ∧
      remoteCount + 1 < 2 * (required + 1) := by
  cases consistency with
  | majority minCap =>
    have hbounds := remoteMajority_bounds remoteCount minCap 0
    exact ⟨_, requiredRemoteWriteAcks_of_le rfl hbounds.1, hbounds.2⟩
  | majorityPlus additional minCap =>
    have hbounds := remoteMajority_bounds remoteCount minCap additional
    exact ⟨_, requiredRemoteWriteAcks_of_le rfl hbounds.1, hbounds.2⟩
  | localOnly | toReplicas | all => exact h.elim

lemma requiredRemoteCountForRead_majority {consistency : ReadConsistency} (h : consistency.IsMajority)
    (remoteCount : ℕ) : ∃ required, requiredRemoteCountForRead consistency remoteCount = .ok required ∧
      remoteCount + 1 < 2 * (required + 1) := by
  cases consistency with
  | majority minCap => exact ⟨_, rfl, (remoteMajority_bounds remoteCount minCap 0).2⟩
  | majorityPlus additional minCap =>
    exact ⟨_, rfl, (remoteMajority_bounds remoteCount minCap additional).2⟩
  | localOnly | fromReplicas | all => exact h.elim

/-! ## One write and one read -/

/-- A majority write and a majority read over the same distinct replicas. -/
structure Quorum (K R : Type*) [DecidableEq R] where
  key : K
  writer : R
  writeRemotes : List R
  writeConsistency : WriteConsistency
  reader : R
  readRemotes : List R
  readConsistency : ReadConsistency
  writeMajority : writeConsistency.IsMajority
  readMajority : readConsistency.IsMajority
  writeNodup : (writer :: writeRemotes).Nodup
  readNodup : (reader :: readRemotes).Nodup
  sameReplicas : (writer :: writeRemotes).toFinset = (reader :: readRemotes).toFinset

structure QuorumState (K D R : Type*) where
  stores : R → Option (DataEnvelope D R)
  write : WriteAggregatorState K R
  /-- The replicas that have taken the write and answered. -/
  taken : Finset R
  read : Option (ReadAggregatorState K D R)
  /-- The writer and those whose acknowledgements were counted when the read started. -/
  writeQuorum : Finset R
  replies : List (R × Option (DataEnvelope D R))

inductive QuorumLabel (D R : Type*)
  | takeWrite (replica : R) (now : ℕ)
  | ack (replica : R)
  | nack (replica : R)
  | update (replica : R) (envelope : DataEnvelope D R)
  | startRead
  | serveRead (replica : R)
  | receiveRead (reply : ℕ)
  | strangerRead (replica : R) (envelope : Option (DataEnvelope D R))

def QuorumState.setStore {K D R : Type*} [DecidableEq R] (s : QuorumState K D R) (p : R)
    (e : DataEnvelope D R) : QuorumState K D R :=
  { s with stores := fun p' => if p' = p then some e else s.stores p' }

section Machine

variable {K D Δ R : Type*} [LinearOrder R] [DeltaReplicatedData D Δ] [RemovedNodePruning D R]

/-- A peer write is merged into the stored value, and its markers are marked as seen. -/
def applyWrite (stored : Option (DataEnvelope D R)) (written : DataEnvelope D R) (now : ℕ)
    (self : R) : DataEnvelope D R :=
  match stored with
  | some envelope => (envelope.mergePruned written now).addPruningSeen self
  | none => written.addPruningSeen self

namespace Quorum

variable (q : Quorum K R) (written : DataEnvelope D R)

def step (s : QuorumState K D R) : QuorumLabel D R → Option (QuorumState K D R)
  | .takeWrite p now => some { s.setStore p (applyWrite (s.stores p) written now p) with
      taken := insert p s.taken }
  | .ack p =>
    -- only who has taken the write acknowledges it; others may be strangers
    if p ∈ s.taken ∨ !q.writeRemotes.contains p then some { s with write := s.write.recordAck p } else none
  | .nack p => some { s with write := s.write.recordNack p }
  | .update p e => some (s.setStore p e)
  | .startRead =>
    if s.read.isNone ∧ (s.write.outcome = .success ∨ s.write.timeout = .success) then
      match ReadAggregatorState.new q.key q.readConsistency q.readRemotes (s.stores q.reader) with
      | .ok read => some { s with
          read := some read, writeQuorum := insert q.writer s.write.acked, replies := [] }
      | .error _ => none
    else none
  | .serveRead p => some { s with replies := s.replies ++ [(p, s.stores p)] }
  | .receiveRead i =>
    match s.read, s.replies[i]? with
    | some read, some reply => some { s with read := some (read.recordReadFrom reply.1 reply.2) }
    | _, _ => none
  | .strangerRead p e =>
    match s.read with
    | some read =>
      if q.readRemotes.contains p then none
      else some { s with read := some (read.recordReadFrom p e) }
    | none => none

/-- The writer has applied its update and starts the write with its new value. -/
def machine (Good : D → Prop) : Machine (QuorumState K D R) (QuorumLabel D R) where
  init s := s.stores q.writer = some written ∧ (∀ p e, s.stores p = some e → Good e.data) ∧
    WriteAggregatorState.new q.key q.writeConsistency q.writeRemotes = .ok s.write ∧
    s.taken = ∅ ∧ s.read = none
  step := q.step written

/-- Replica states only grow: what replaces a state is above it. -/
def Grows (Good : D → Prop) (s : QuorumState K D R) : QuorumLabel D R → Prop
  | .takeWrite p now =>
    ∀ e ∈ s.stores p, MergeBelow e.data (applyWrite (s.stores p) written now p).data
  | .update p e => Good e.data ∧ ∀ old ∈ s.stores p, MergeBelow old.data e.data
  | _ => True

/-- A replica takes the write without a performed marker for a replica with a contribution in it. -/
def Unpruned (s : QuorumState K D R) : QuorumLabel D R → Prop
  | .takeWrite p now => ∀ e ∈ s.stores p,
    ∀ r ∈ (e.pruning.mergeWithoutObsolete written.pruning now).performed,
      needPruningFrom written.data r = false
  | _ => True

/-! ## Who is counted -/

variable {q written} {Good : D → Prop} {s : QuorumState K D R}

variable (q) in
structure CountedRead (read : ReadAggregatorState K D R) : Prop where
  remoteNodes : read.remoteNodes = q.readRemotes
  required : q.readRemotes.length + 1 < 2 * (read.requiredRemoteReads + 1)
  receivedFrom : ∀ p ∈ read.receivedFrom, p ∈ q.readRemotes
  received : read.received = read.receivedFrom.card

variable (q) in
/-- Acknowledgements are counted of remote replicas that have taken the write; when the read starts they
and the writer are a majority. -/
structure Counted (s : QuorumState K D R) : Prop where
  remoteNodes : s.write.remoteNodes = q.writeRemotes
  required : q.writeRemotes.length + 1 < 2 * (s.write.requiredRemoteAcks + 1)
  acked : ∀ p ∈ s.write.acked, p ∈ q.writeRemotes ∧ p ∈ s.taken
  read : ∀ read, s.read = some read → CountedRead q read
  quorum : s.read.isSome → s.writeQuorum ⊆ insert q.writer s.taken ∧
    s.writeQuorum ⊆ (q.writer :: q.writeRemotes).toFinset ∧
    q.writeRemotes.length + 1 < 2 * s.writeQuorum.card

section Counting

omit [RemovedNodePruning D R]

variable {read : ReadAggregatorState K D R} {p : R} {envelope : Option (DataEnvelope D R)}

lemma CountedRead.recordReadFrom (h : CountedRead q read) :
    CountedRead q (read.recordReadFrom p envelope) := by
  unfold ReadAggregatorState.recordReadFrom
  split_ifs with hskip
  · exact h
  · rw [h.remoteNodes, not_or, not_not] at hskip
    obtain ⟨hp, hnew⟩ := hskip
    refine ⟨h.remoteNodes, h.required, ?_, ?_⟩
    · intro p' hp'
      rcases mem_insert.mp hp' with rfl | hp'
      · exact hp
      · exact h.receivedFrom p' hp'
    · have hcard := card_insert_of_notMem hnew
      simp only [recordRead]
      rw [hcard, h.received]

lemma Counted.receive (h : Counted q s) (hread : s.read = some read) :
    Counted q { s with read := some (read.recordReadFrom p envelope) } := by
  have hsome : s.read.isSome := by rw [hread]; rfl
  refine { h with read := fun read' hread' => ?_, quorum := fun _ => h.quorum hsome }
  cases hread'
  exact (h.read read hread).recordReadFrom

lemma Counted.takeWrite (h : Counted q s) {e : DataEnvelope D R} :
    Counted q { s.setStore p e with taken := insert p s.taken } := by
  refine { h with acked := fun p' hp' => ?_, quorum := fun hsome => ?_ }
  · exact ⟨(h.acked p' hp').1, mem_insert_of_mem (h.acked p' hp').2⟩
  · obtain ⟨htaken, hquorum⟩ := h.quorum hsome
    exact ⟨htaken.trans (insert_subset_insert _ (subset_insert _ _)), hquorum⟩

lemma Counted.ack (h : Counted q s) (hp : p ∈ s.taken ∨ p ∉ q.writeRemotes) :
    Counted q { s with write := s.write.recordAck p } := by
  unfold WriteAggregatorState.recordAck
  split_ifs with hmem
  · rw [h.remoteNodes] at hmem
    refine { h with acked := fun p' hp' => ?_ }
    rcases mem_insert.mp hp' with rfl | hp'
    · exact ⟨hmem, hp.resolve_right (not_not.mpr hmem)⟩
    · exact h.acked p' hp'
  · exact h

lemma Counted.nack (h : Counted q s) (p : R) :
    Counted q { s with write := s.write.recordNack p } := by
  unfold WriteAggregatorState.recordNack
  split_ifs
  · exact { h with }
  · exact h

lemma exists_of_new (hnew : new q.key q.readConsistency q.readRemotes (s.stores q.reader) = .ok read) :
    ∃ required, read = ⟨q.key, q.readRemotes, required, 0, ∅, s.stores q.reader⟩ ∧
      q.readRemotes.length + 1 < 2 * (required + 1) := by
  obtain ⟨required, hrequired, hmajority⟩ :=
    requiredRemoteCountForRead_majority q.readMajority q.readRemotes.length
  rw [new, hrequired] at hnew
  exact ⟨required, (Except.ok.inj hnew).symm, hmajority⟩

lemma Counted.startRead (h : Counted q s)
    (hsuccess : s.write.outcome = .success ∨ s.write.timeout = .success)
    (hnew : new q.key q.readConsistency q.readRemotes (s.stores q.reader) = .ok read) :
    Counted q { s with
      read := some read, writeQuorum := insert q.writer s.write.acked, replies := [] } := by
  have hacks : s.write.requiredRemoteAcks ≤ s.write.acked.card := by
    rcases hsuccess with h | h
    · exact s.write.outcome_success_iff.mp h
    · exact s.write.timeout_success_iff.mp h
  have hwriter : q.writer ∉ s.write.acked := fun hw =>
    (List.nodup_cons.mp q.writeNodup).1 (h.acked _ hw).1
  obtain ⟨required, rfl, hmajority⟩ := exists_of_new hnew
  refine { h with read := fun read hread => ?_, quorum := fun _ => ⟨?_, ?_, ?_⟩ }
  · cases hread
    exact ⟨rfl, hmajority, fun p hp => absurd hp (notMem_empty p), rfl⟩
  · exact insert_subset_insert _ fun p hp => (h.acked p hp).2
  · intro p hp
    rw [List.toFinset_cons, mem_insert, List.mem_toFinset]
    exact (mem_insert.mp hp).imp id fun hp => (h.acked p hp).1
  · have hrequired := h.required
    simp only [card_insert_of_notMem hwriter]
    omega

end Counting

omit [RemovedNodePruning D R] in
/-- Two majorities of the replicas share one. -/
lemma Counted.exists_mem_quorums {read : ReadAggregatorState K D R} (h : Counted q s)
    (hread : s.read = some read) (hout : read.outcome = .success e) :
    ∃ p, p ∈ s.writeQuorum ∧ p ∈ insert q.reader read.receivedFrom := by
  have hr := h.read read hread
  obtain ⟨-, hreplicas, hmajority⟩ := h.quorum (by rw [hread]; rfl)
  obtain ⟨-, hreceived, -⟩ := outcome_success_iff.mp hout
  have hreader : q.reader ∉ read.receivedFrom := fun h =>
    (List.nodup_cons.mp q.readNodup).1 (hr.receivedFrom _ h)
  have hreads : insert q.reader read.receivedFrom ⊆ (q.writer :: q.writeRemotes).toFinset := by
    rw [q.sameReplicas, List.toFinset_cons]
    exact insert_subset_insert _ fun p hp => List.mem_toFinset.mpr (hr.receivedFrom p hp)
  have hcard : (q.writer :: q.writeRemotes).toFinset.card = q.writeRemotes.length + 1 :=
    List.toFinset_card_of_nodup q.writeNodup
  have hcard' : (q.writer :: q.writeRemotes).toFinset.card = q.readRemotes.length + 1 := by
    rw [q.sameReplicas]
    exact List.toFinset_card_of_nodup q.readNodup
  have hlt : (q.writer :: q.writeRemotes).toFinset.card <
      s.writeQuorum.card + (insert q.reader read.receivedFrom).card := by
    have hrequired := hr.required
    have hcount := hr.received
    rw [card_insert_of_notMem hreader]
    omega
  obtain ⟨p, hp⟩ := inter_nonempty_of_card_lt_card_add_card hreplicas hreads hlt
  exact ⟨p, mem_inter.mp hp⟩

lemma counted_of_init (h : (q.machine written Good).init s) : Counted q s := by
  obtain ⟨-, -, hnew, -, hread⟩ := h
  obtain ⟨required, hrequired, hmajority⟩ :=
    requiredRemoteWriteAcks_majority q.writeMajority q.writeRemotes.length
  have hwrite : s.write = ⟨q.key, q.writeRemotes, required, ∅, ∅⟩ := by
    rw [WriteAggregatorState.new, hrequired] at hnew
    exact (Except.ok.inj hnew).symm
  refine ⟨by rw [hwrite], by rw [hwrite]; exact hmajority, fun p hp => ?_, fun read h => ?_, fun h => ?_⟩
  · rw [hwrite] at hp
    exact absurd hp (notMem_empty p)
  all_goals
    rw [hread] at h
    cases h

/-! ## What the counted replicas hold -/

/-- The store holds at least what was written. -/
def Holds (written : DataEnvelope D R) (store : Option (DataEnvelope D R)) : Prop :=
  ∃ e, store = some e ∧ MergeBelow written.data e.data

variable (q written Good) in
structure Held (s : QuorumState K D R) : Prop where
  good : ∀ p e, s.stores p = some e → Good e.data
  holds : ∀ p ∈ insert q.writer s.taken, Holds written (s.stores p)
  replies : s.read.isSome → ∀ reply ∈ s.replies, (∀ e, reply.2 = some e → Good e.data) ∧
    (reply.1 ∈ s.writeQuorum → Holds written reply.2)
  result : ∀ read, s.read = some read → (∀ e, read.result = some e → Good e.data) ∧
    ∀ p ∈ insert q.reader read.receivedFrom, p ∈ s.writeQuorum → Holds written read.result

section Steps

omit [RemovedNodePruning D R]

variable (laws : MergeLaws Good) (hwritten : Good written.data) {read : ReadAggregatorState K D R}
  {e : DataEnvelope D R} {p : R} {envelope : Option (DataEnvelope D R)}

include laws hwritten

lemma holds_mergeResult {left right : Option (DataEnvelope D R)}
    (hleft : ∀ e, left = some e → Good e.data) (hright : ∀ e, right = some e → Good e.data)
    (h : Holds written left ∨ Holds written right) :
    Holds written (mergeResult left right) := by
  cases left <;> cases right
  · exact h.elim id id
  · exact h.elim (fun ⟨_, h, _⟩ => nomatch h) id
  · exact h.elim id fun ⟨_, h, _⟩ => nomatch h
  · have hl := hleft _ rfl
    have hr := hright _ rfl
    refine ⟨_, rfl, ?_⟩
    rcases h with ⟨e, ⟨⟩, hb⟩ | ⟨e, ⟨⟩, hb⟩
    · exact laws.below_trans hwritten hl (laws.good_merge _ _ hl hr) hb (laws.below_merge_left hl hr)
    · exact laws.below_trans hwritten hr (laws.good_merge _ _ hl hr) hb (laws.below_merge_right hl hr)

omit hwritten in
lemma good_mergeResult {left right : Option (DataEnvelope D R)}
    (hleft : ∀ e, left = some e → Good e.data) (hright : ∀ e, right = some e → Good e.data)
    (h : mergeResult left right = some e) : Good e.data := by
  cases left <;> cases right
  · cases h
  · exact hright e h
  · exact hleft e h
  · exact some.inj h ▸ laws.good_merge _ _ (hleft _ rfl) (hright _ rfl)

lemma Held.setStore (h : Held q written Good s) (he : Good e.data)
    (hgrow : ∀ old ∈ s.stores p, MergeBelow old.data e.data) :
    Held q written Good (s.setStore p e) where
  good p' e' h' := by
    simp only [QuorumState.setStore] at h'
    split_ifs at h' with hp
    · exact some.inj h' ▸ he
    · exact h.good p' e' h'
  holds p' hp' := by
    obtain ⟨old, hold, hb⟩ := h.holds p' hp'
    simp only [QuorumState.setStore]
    split_ifs with hp
    · subst hp
      exact ⟨e, rfl, laws.below_trans hwritten (h.good _ _ hold) he hb (hgrow old hold)⟩
    · exact ⟨old, hold, hb⟩
  replies := h.replies
  result := h.result

lemma Held.takeWrite (h : Held q written Good s) (he : Good e.data)
    (hgrow : ∀ old ∈ s.stores p, MergeBelow old.data e.data)
    (htaken : MergeBelow written.data e.data) :
    Held q written Good { s.setStore p e with taken := insert p s.taken } := by
  have hset := h.setStore laws hwritten he hgrow
  refine ⟨hset.good, fun p' hp' => ?_, hset.replies, hset.result⟩
  by_cases hp : p' = p
  · exact ⟨e, by simp [QuorumState.setStore, hp], htaken⟩
  · refine hset.holds p' ?_
    rw [mem_insert, mem_insert] at hp'
    rcases hp' with h | h | h
    · exact mem_insert.mpr (.inl h)
    · exact absurd h hp
    · exact mem_insert_of_mem h

omit laws hwritten in
lemma Held.startRead (h : Held q written Good s) (hc : Counted q s)
    (hnew : new q.key q.readConsistency q.readRemotes (s.stores q.reader) = .ok read) :
    Held q written Good { s with
      read := some read, writeQuorum := insert q.writer s.write.acked, replies := [] } := by
  obtain ⟨required, rfl, -⟩ := exists_of_new hnew
  refine ⟨h.good, h.holds, fun _ reply hr => absurd hr List.not_mem_nil, fun read hread => ?_⟩
  cases hread
  refine ⟨h.good q.reader, fun p hp hquorum => ?_⟩
  obtain rfl : p = q.reader := by simpa using hp
  refine h.holds _ (insert_subset_insert _ (fun p hp => ?_) hquorum)
  exact (hc.acked p hp).2

omit laws hwritten in
lemma Held.serveRead (h : Held q written Good s) (hc : Counted q s) (p : R) :
    Held q written Good { s with replies := s.replies ++ [(p, s.stores p)] } := by
  refine ⟨h.good, h.holds, fun hsome => ?_, h.result⟩
  refine List.forall_mem_append.mpr ⟨h.replies hsome, List.forall_mem_singleton.mpr ?_⟩
  exact ⟨h.good p, fun hquorum => h.holds p ((hc.quorum hsome).1 hquorum)⟩

lemma Held.receive (h : Held q written Good s) (hc : Counted q s) (hread : s.read = some read)
    (hp : (p, envelope) ∈ s.replies ∨ p ∉ q.readRemotes) :
    Held q written Good { s with read := some (read.recordReadFrom p envelope) } := by
  have hsome : s.read.isSome := by rw [hread]; rfl
  obtain ⟨hgood, hresult⟩ := h.result read hread
  refine ⟨h.good, h.holds, fun _ => h.replies hsome, fun read' hread' => ?_⟩
  cases hread'
  unfold ReadAggregatorState.recordReadFrom
  split_ifs with hskip
  · exact ⟨hgood, hresult⟩
  · rw [(hc.read read hread).remoteNodes, not_or, not_not] at hskip
    obtain ⟨henvelope, hholds⟩ := h.replies hsome _ (hp.resolve_right (not_not.mpr hskip.1))
    refine ⟨fun e he => good_mergeResult laws hgood henvelope he, fun p' hp' hquorum => ?_⟩
    refine holds_mergeResult laws hwritten hgood henvelope ?_
    rcases mem_insert.mp hp' with rfl | hp'
    · exact .inl (hresult _ (mem_insert_self _ _) hquorum)
    · rcases mem_insert.mp hp' with rfl | hp'
      · exact .inr (hholds hquorum)
      · exact .inl (hresult p' (mem_insert_of_mem hp') hquorum)

end Steps

/-! ## Runs -/

lemma good_applyWrite (laws : MergeLaws Good)
    (hclean : CleanupKeeps R Good) (hwritten : Good written.data)
    {stored : Option (DataEnvelope D R)} (hstored : ∀ e, stored = some e → Good e.data) (now : ℕ)
    (self : R) : Good (applyWrite stored written now self).data := by
  cases stored with
  | none => exact hwritten
  | some e =>
    exact laws.good_merge _ _ (hclean.cleanupPerformed (hstored e rfl) _)
      (hclean.cleanupPerformed hwritten _)

/-- A write is taken whole where no part of it is declared pruned. -/
lemma below_applyWrite (laws : MergeLaws Good) (hclean : CleanupKeeps R Good)
    (hwritten : Good written.data) (hstored : ∀ e, s.stores p = some e → Good e.data) {now : ℕ}
    (hunpruned : Unpruned written s (.takeWrite p now)) :
    MergeBelow written.data (applyWrite (s.stores p) written now p).data := by
  simp only [Unpruned] at hunpruned
  cases h : s.stores p with
  | none => exact laws.below_refl hwritten
  | some e =>
    have hwhole := cleanupPerformed_eq_self (hunpruned e h)
    have hkept := hclean.cleanupPerformed (hstored e h)
      (e.pruning.mergeWithoutObsolete written.pruning now)
    simp only [applyWrite, DataEnvelope.addPruningSeen, DataEnvelope.mergePruned, hwhole]
    exact laws.below_merge_right hkept hwritten

/-- **One step** keeps the counts, and with a write that is taken whole also the values. -/
lemma Counted.step (laws : MergeLaws Good) (hclean : CleanupKeeps R Good)
    (hwritten : Good written.data) {t : QuorumState K D R} {i : QuorumLabel D R} (hc : Counted q s)
    (hstep : q.step written s i = some t) : Counted q t ∧ (Held q written Good s →
      Grows written Good s i → Unpruned written s i → Held q written Good t) := by
  cases i with
  | takeWrite p now =>
    cases hstep
    refine ⟨hc.takeWrite, fun h hgrows hunpruned => ?_⟩
    exact h.takeWrite laws hwritten (good_applyWrite laws hclean hwritten (h.good p) now p) hgrows
      (below_applyWrite laws hclean hwritten (h.good p) hunpruned)
  | ack p =>
    rw [Quorum.step] at hstep
    split_ifs at hstep with hp
    cases hstep
    exact ⟨hc.ack (hp.imp_right fun hp => by simpa using hp), fun h _ _ => { h with }⟩
  | nack p =>
    cases hstep
    exact ⟨hc.nack p, fun h _ _ => { h with }⟩
  | update p e =>
    cases hstep
    exact ⟨{ hc with }, fun h hgrows _ => h.setStore laws hwritten hgrows.1 hgrows.2⟩
  | startRead =>
    rw [Quorum.step] at hstep
    split_ifs at hstep with hp
    split at hstep
    · rename_i read hnew
      cases hstep
      exact ⟨hc.startRead hp.2 hnew, fun h _ _ => h.startRead hc hnew⟩
    · cases hstep
  | serveRead p =>
    cases hstep
    exact ⟨{ hc with }, fun h _ _ => h.serveRead hc p⟩
  | receiveRead i =>
    rw [Quorum.step] at hstep
    split at hstep
    · rename_i read reply hread hreply
      cases hstep
      exact ⟨hc.receive hread, fun h _ _ =>
        h.receive laws hwritten hc hread (.inl (List.mem_of_getElem? hreply))⟩
    · cases hstep
  | strangerRead p e =>
    rw [Quorum.step] at hstep
    split at hstep
    · rename_i read hread
      split_ifs at hstep with hp
      cases hstep
      exact ⟨hc.receive hread, fun h _ _ =>
        h.receive laws hwritten hc hread (.inr (by simpa using hp))⟩
    · cases hstep

lemma held_of_init (laws : MergeLaws Good) (h : (q.machine written Good).init s) :
    Held q written Good s := by
  obtain ⟨hwriter, hgood, -, htaken, hread⟩ := h
  refine ⟨hgood, fun p hp => ?_, fun h => ?_, fun read h => ?_⟩
  · rw [htaken, insert_empty_eq, mem_singleton] at hp
    rw [hp]
    exact ⟨written, hwriter, laws.below_refl (hgood _ _ hwriter)⟩
  all_goals
    rw [hread] at h
    cases h

lemma good_of_reach {c : QuorumState K D R → QuorumLabel D R → Prop}
    (hs : (q.machine written Good).Reach c s) : Good written.data := by
  induction hs with
  | init h => exact h.2.1 _ _ h.1
  | step _ _ _ ih => exact ih

/-- **Quorum intersection.**  A majority is more than half of the replicas and at most all of them, and
a successful majority read after a successful majority write shares a replica with it.  It returns at
least what was written, if the states of the replicas only grow and no part of the write is declared
pruned where it is taken. -/
theorem majority_read_above_write (q : Quorum K R) (laws : MergeLaws Good)
    (hclean : CleanupKeeps R Good) (written : DataEnvelope D R) :
    (∀ n minCap additional, 0 < n → n < 2 * calculateMajority minCap n additional ∧
      calculateMajority minCap n additional ≤ n) ∧
    (∀ s, (q.machine written Good).Reachable s → ∀ read, s.read = some read →
      ∀ e, read.outcome = .success e ∨ read.timeout = .success e →
        ∃ p, p ∈ s.writeQuorum ∧ p ∈ insert q.reader read.receivedFrom) ∧
    ∀ s, (q.machine written Good).Reach (fun s i => Grows written Good s i ∧ Unpruned written s i) s →
      ∀ read, s.read = some read → ∀ e, read.outcome = .success e ∨ read.timeout = .success e →
        MergeBelow written.data e.data := by
  refine ⟨fun n minCap additional hn => calculateMajority_bounds minCap additional hn, ?_, ?_⟩
  · intro s hs read hread e hout
    have hc : Counted q s := hs.invariant (I := Counted q) (fun _ h => counted_of_init h)
      fun _ _ _ h _ hstep => (h.step laws hclean (good_of_reach hs) hstep).1
    exact hc.exists_mem_quorums hread (hout.elim id timeout_success_iff.mp)
  · intro s hs read hread e hout
    have hout : read.outcome = .success e := hout.elim id timeout_success_iff.mp
    obtain ⟨hc, hheld⟩ : Counted q s ∧ Held q written Good s := by
      refine hs.invariant (I := fun s => Counted q s ∧ Held q written Good s)
        (fun _ h => ⟨counted_of_init h, held_of_init laws h⟩) fun _ _ _ h hok hstep => ?_
      obtain ⟨hc, hheld⟩ := h.1.step laws hclean (good_of_reach hs) hstep
      exact ⟨hc, hheld h.2 hok.1 hok.2⟩
    obtain ⟨p, hp, hpread⟩ := hc.exists_mem_quorums hread hout
    obtain ⟨e', he', hbelow⟩ := (hheld.result read hread).2 p hpread hp
    have hresult := (outcome_success_iff.mp hout).2.2
    rw [hresult] at he'
    rwa [← some.inj he'] at hbelow

end Quorum

end Machine

/-! ## Three replicas -/

namespace MajorityOfThree

abbrev Value := DataEnvelope (GCounter ℕ) ℕ

abbrev State := QuorumState Unit (GCounter ℕ) ℕ

/-- Replica 0 writes and replica 2 reads; replica 3 is gone. -/
def quorum : Quorum Unit ℕ where
  key := ()
  writer := 0
  writeRemotes := [1, 2]
  writeConsistency := .majority 0
  reader := 2
  readRemotes := [0, 1]
  readConsistency := .majority 0
  writeMajority := trivial
  readMajority := trivial
  writeNodup := by decide
  readNodup := by decide
  sameReplicas := by decide

/-- Replica 1 has heard that the contribution of replica 3 was pruned. -/
def start (written : Value) : State where
  stores p := if p = 0 then some written
    else if p = 1 then some ⟨⟨Finmap.singleton 1 2, none⟩, ⟨Finmap.singleton 3 (.performed ⟨100⟩)⟩⟩
    else none
  write := ⟨(), [1, 2], 1, ∅, ∅⟩
  taken := ∅
  read := none
  writeQuorum := ∅
  replies := []

instance (written : Value) (s : State) i :
    Decidable (Quorum.Grows written GCounter.Positive s i) := by
  cases i <;> unfold Quorum.Grows <;> infer_instance

instance (written : Value) (s : State) i : Decidable (Quorum.Unpruned written s i) := by
  cases i <;> unfold Quorum.Unpruned <;> infer_instance

/-- Replica 1 takes the write and answers the read. -/
def run : List (QuorumLabel (GCounter ℕ) ℕ) :=
  [.takeWrite 1 0, .ack 1, .startRead, .serveRead 1, .receiveRead 0]

lemma init_start (written : Value) (h : written.data.Positive) :
    (quorum.machine written GCounter.Positive).init (start written) := by
  refine ⟨rfl, fun p e he => ?_, rfl, rfl, rfl⟩
  simp only [start] at he
  split_ifs at he
  · exact some.inj he ▸ h
  · cases he
    decide

/-- What a finished read returns. -/
def value (s : State) : Option (GCounter ℕ) :=
  s.read.bind fun read => match read.outcome with
    | .success e => some e.data
    | _ => none

lemma exists_of_value {s : State} {c : GCounter ℕ}
    (h : value s = some c) :
    ∃ read e, s.read = some read ∧ read.outcome = .success e ∧ e.data = c := by
  obtain ⟨read, hread, h⟩ := bind_eq_some_iff.mp h
  split at h
  · rename_i e he
    exact ⟨read, e, hread, he, some.inj h⟩
  · cases h

/-- The write of replica 0, and one that still has a contribution of replica 3. -/
def written : Value := .new ⟨Finmap.singleton 0 5, none⟩

def late : Value := .new ⟨(Finmap.singleton 0 5).insert 3 1, none⟩

/-- The read of replica 2 returns the write of replica 0. -/
theorem read_above_write : ∃ s read e, (quorum.machine written GCounter.Positive).Reach
      (fun s i => Quorum.Grows written GCounter.Positive s i ∧ Quorum.Unpruned written s i) s ∧
    s.read = some read ∧ read.outcome = .success e ∧
    e.data = ⟨(Finmap.singleton 0 5).insert 1 2, none⟩ ∧ MergeBelow written.data e.data := by
  obtain ⟨s, hs, h⟩ := Machine.Reach.exists_of_exec
    (c := fun s i => Quorum.Grows written GCounter.Positive s i ∧ Quorum.Unpruned written s i)
    (P := fun s => value s = some ⟨(Finmap.singleton 0 5).insert 1 2, none⟩) run
    (init_start written (by decide)) (by decide +kernel)
  obtain ⟨read, e, hread, hout, hdata⟩ := exists_of_value h
  have h := (Quorum.majority_read_above_write quorum GCounter.mergeLaws GCounter.cleanupKeeps
    written).2.2 s hs read hread e (.inl hout)
  exact ⟨s, read, e, hs, hread, hout, hdata, h⟩

/-- Replica 1 cleans the write of what was pruned and acknowledges it; the read returns less. -/
theorem read_below_write : ∃ s read e, (quorum.machine late GCounter.Positive).Reach
      (Quorum.Grows late GCounter.Positive) s ∧ s.read = some read ∧ read.outcome = .success e ∧
    ¬ MergeBelow late.data e.data := by
  obtain ⟨s, hs, h⟩ := Machine.Reach.exists_of_exec (c := Quorum.Grows late GCounter.Positive)
    (P := fun s => value s = some ⟨(Finmap.singleton 0 5).insert 1 2, none⟩) run
    (init_start late (by decide)) (by decide +kernel)
  obtain ⟨read, e, hread, hout, hdata⟩ := exists_of_value h
  refine ⟨s, read, e, hs, hread, hout, ?_⟩
  rw [hdata]
  decide

end MajorityOfThree

end Kairo.DistributedData
