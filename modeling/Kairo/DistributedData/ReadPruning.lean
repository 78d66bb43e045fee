import Kairo.DistributedData.Aggregation
import Kairo.DistributedData.LatePruning

/-!
# Reads and pruned replicas

The read aggregator joins the replies with the plain merge.  The result respects the markers that came
with the replies exactly when no reply holds a contribution that the marker of another one has
declared pruned.
-/

namespace Kairo.DistributedData

open Kairo.Lib DeltaReplicatedData RemovedNodePruning LawfulPruning ReadAggregatorState PruningTable
  List FinMap

variable {K D Δ R : Type*} [LinearOrder R] [DeltaReplicatedData D Δ] {now : ℕ}

namespace ReadAggregatorState

/-! ## The accepted replies -/

def recordAll (s : ReadAggregatorState K D R) (replies : List (R × Option (DataEnvelope D R))) :
    ReadAggregatorState K D R :=
  replies.foldl (fun s reply => s.recordReadFrom reply.1 reply.2) s

omit [DeltaReplicatedData D Δ] in
/-- The envelopes of the replies that are taken: the first one of every known replica. -/
def accepted (remoteNodes : List R) :
    Finset R → List (R × Option (DataEnvelope D R)) → List (DataEnvelope D R)
  | _, [] => []
  | seen, (replica, envelope) :: replies =>
    if !remoteNodes.contains replica ∨ replica ∈ seen then accepted remoteNodes seen replies
    else envelope.toList ++ accepted remoteNodes (insert replica seen) replies

def joinAll : List (DataEnvelope D R) → Option (DataEnvelope D R)
  | [] => none
  | e :: es => some (es.foldl DataEnvelope.merge e)

lemma mergeResult_joinAll (es : List (DataEnvelope D R)) (e : Option (DataEnvelope D R)) :
    mergeResult (joinAll es) e = joinAll (es ++ e.toList) := by
  cases es with
  | nil => cases e <;> rfl
  | cons first es =>
    cases e with
    | none | some e => simp [joinAll, mergeResult]

lemma result_recordAll (replies : List (R × Option (DataEnvelope D R)))
    (s : ReadAggregatorState K D R) {es : List (DataEnvelope D R)} (hs : s.result = joinAll es) :
    (s.recordAll replies).result = joinAll (es ++ accepted s.remoteNodes s.receivedFrom replies) := by
  induction replies generalizing s es with
  | nil =>
    rw [accepted, append_nil]
    exact hs
  | cons reply replies ih =>
    obtain ⟨replica, envelope⟩ := reply
    have hstep : s.recordAll ((replica, envelope) :: replies) =
        (s.recordReadFrom replica envelope).recordAll replies := rfl
    rw [hstep, accepted]
    simp only [contains_eq_mem, Bool.not_eq_true', decide_eq_false_iff_not]
    by_cases hskip : replica ∉ s.remoteNodes ∨ replica ∈ s.receivedFrom
    · rw [if_pos hskip, recordReadFrom, if_pos hskip]
      exact ih s hs
    · rw [if_neg hskip, recordReadFrom, if_neg hskip, ← append_assoc]
      refine ih _ ?_
      rw [recordRead, ← mergeResult_joinAll, ← hs]

/-- A read from its start returns the join of the local value and the accepted replies. -/
lemma joinAll_of_success {key : K} {consistency : ReadConsistency} {remoteNodes : List R}
    {localValue : Option (DataEnvelope D R)} {s : ReadAggregatorState K D R}
    (hnew : new key consistency remoteNodes localValue = .ok s)
    {replies : List (R × Option (DataEnvelope D R))} {e : DataEnvelope D R}
    (hout : (s.recordAll replies).outcome = .success e) :
    joinAll (localValue.toList ++ accepted remoteNodes ∅ replies) = some e := by
  have hstart : s.remoteNodes = remoteNodes ∧ s.receivedFrom = ∅ ∧ s.result = localValue := by
    unfold new at hnew
    cases hr : requiredRemoteCountForRead consistency remoteNodes.length with
    | error error => rw [hr] at hnew; cases hnew
    | ok required =>
      rw [hr] at hnew
      obtain rfl := Except.ok.inj hnew
      exact ⟨rfl, rfl, rfl⟩
  have hlocal : s.result = joinAll localValue.toList := by
    rw [hstart.2.2]
    cases localValue <;> rfl
  rw [← hstart.1, ← hstart.2.1, ← result_recordAll replies s hlocal]
  exact (outcome_success_iff.mp hout).2.2

end ReadAggregatorState

/-! ## Markers of a join -/

namespace PruningState

omit [DeltaReplicatedData D Δ] in
/-- A merged marker is performed and still in force where one of the two is. -/
lemma merge_inForce {m m' : PruningState R} :
    ((m.merge m').isPerformed = true ∧ (m.merge m').isObsolete now = false) ↔
      (m.isPerformed = true ∧ m.isObsolete now = false) ∨
        m'.isPerformed = true ∧ m'.isObsolete now = false := by
  cases m with
  | initialized m =>
    cases m' with
    | initialized m' | performed m' => simp [merge, isPerformed]
  | performed m =>
    cases m' with
    | initialized m' => simp [merge, isPerformed]
    | performed m' =>
      simp only [merge, isObsolete, PruningPerformed.isObsolete]
      split_ifs with hle
      all_goals
        simp only [isPerformed, true_and, decide_eq_false_iff_not]
        omega

end PruningState

namespace PruningTable

/-- The replica has a performed marker that is not obsolete. -/
def InForce (t : PruningTable R) (now : ℕ) (r : R) : Prop :=
  ∃ m, t.get r = some m ∧ m.isPerformed = true ∧ m.isObsolete now = false

variable {t t' : PruningTable R} {now : ℕ} {r : R}

lemma inForce_merge : (t.merge t').InForce now r ↔ t.InForce now r ∨ t'.InForce now r := by
  unfold InForce
  rw [get_merge]
  cases ht : t.get r with
  | none => cases ht' : t'.get r <;> simp
  | some m =>
    cases ht' : t'.get r with
    | none => simp
    | some m' => simpa using PruningState.merge_inForce

lemma inForce_mergeWithoutObsolete :
    (t.mergeWithoutObsolete t' now).InForce now r ↔ t.InForce now r ∨ t'.InForce now r := by
  rw [← inForce_merge]
  unfold InForce
  rw [get_mergeWithoutObsolete]
  constructor
  · rintro ⟨m, hm, hp⟩
    exact ⟨m, (Option.filter_eq_some_iff.mp hm).1, hp⟩
  · rintro ⟨m, hm, hp⟩
    exact ⟨m, Option.filter_eq_some_iff.mpr ⟨hm, by simp [hp.2]⟩, hp⟩

lemma inForce_of_mem_performed (h : r ∈ (t.mergeWithoutObsolete t' now).performed) :
    (t.mergeWithoutObsolete t' now).InForce now r := by
  obtain ⟨m, hm⟩ := mem_performed.mp h
  refine ⟨_, hm, rfl, ?_⟩
  rw [get_mergeWithoutObsolete] at hm
  simpa using (Option.filter_eq_some_iff.mp hm).2

end PruningTable

/-! ## Reads that respect pruning -/

variable [RemovedNodePruning D R] {es : List (DataEnvelope D R)} {result : DataEnvelope D R}
  {Good : D → Prop}

def joinPruned (now : ℕ) : List (DataEnvelope D R) → Option (DataEnvelope D R)
  | [] => none
  | e :: es => some (es.foldl (fun a b => a.mergePruned b now) e)

/-- The read result holds no contribution of a replica whose merged marker is performed and not yet
obsolete, and it is the join with the pruning merge. -/
def RespectsPruning (now : ℕ) (es : List (DataEnvelope D R)) (result : DataEnvelope D R) : Prop :=
  (∀ r, result.pruning.InForce now r → needPruningFrom result.data r = false) ∧
    (joinPruned now es).map (·.data) = some result.data

/-- No envelope holds a contribution that a marker of another one declares pruned. -/
def NoPrunedContribution (now : ℕ) (es : List (DataEnvelope D R)) : Prop :=
  ∀ marked ∈ es, ∀ r, marked.pruning.InForce now r → ∀ e ∈ es, needPruningFrom e.data r = false

omit [RemovedNodePruning D R] in
lemma inForce_foldl_merge (now : ℕ) (r : R) (es : List (DataEnvelope D R)) (e : DataEnvelope D R) :
    (es.foldl DataEnvelope.merge e).pruning.InForce now r ↔
      ∃ e' ∈ e :: es, e'.pruning.InForce now r := by
  induction es generalizing e with
  | nil => simp
  | cons e' es ih =>
    have hmerge : (e.merge e').pruning.InForce now r ↔
        e.pruning.InForce now r ∨ e'.pruning.InForce now r := inForce_merge
    rw [foldl_cons, ih]
    simp only [exists_mem_cons_iff]
    rw [hmerge, or_assoc]

lemma needPruningFrom_foldl_merge [LawfulPruning D Δ R] {r : R} (es : List (DataEnvelope D R))
    (e : DataEnvelope D R)
    (h : needPruningFrom (es.foldl DataEnvelope.merge e).data r = true) :
    ∃ e' ∈ e :: es, needPruningFrom e'.data r = true := by
  induction es generalizing e with
  | nil => exact ⟨e, mem_cons_self, h⟩
  | cons e' es ih =>
    obtain ⟨f, hf, hneed⟩ := ih (e.merge e') h
    rcases mem_cons.mp hf with rfl | hf
    · rcases needPruningFrom_merge e.data e'.data r hneed with h | h
      · exact ⟨e, mem_cons_self, h⟩
      · exact ⟨e', mem_cons_of_mem _ mem_cons_self, h⟩
    · exact ⟨f, mem_cons_of_mem _ (mem_cons_of_mem _ hf), hneed⟩

/-- Where the envelopes hold no pruned contribution, both joins give the same data, and the same
markers are in force. -/
lemma foldl_mergePruned [LawfulPruning D Δ R] (rest : List (DataEnvelope D R))
    (a b : DataEnvelope D R) (hdata : a.data = b.data)
    (hforce : ∀ r, a.pruning.InForce now r ↔ b.pruning.InForce now r)
    (h : NoPrunedContribution now (b :: rest)) :
    (rest.foldl (fun a b => a.mergePruned b now) a).data =
      (rest.foldl DataEnvelope.merge b).data := by
  induction rest generalizing a b with
  | nil => exact hdata
  | cons e rest ih =>
    have hclean : ∀ r, (b.pruning.InForce now r ∨ e.pruning.InForce now r) →
        needPruningFrom b.data r = false ∧ needPruningFrom e.data r = false := by
      intro r hr
      rcases hr with hr | hr
      · exact ⟨h b mem_cons_self r hr b mem_cons_self,
          h b mem_cons_self r hr e (mem_cons_of_mem _ mem_cons_self)⟩
      · have he : e ∈ b :: e :: rest := mem_cons_of_mem _ mem_cons_self
        exact ⟨h e he r hr b mem_cons_self, h e he r hr e he⟩
    have hperformed : ∀ r ∈ (a.pruning.mergeWithoutObsolete e.pruning now).performed,
        needPruningFrom b.data r = false ∧ needPruningFrom e.data r = false := by
      intro r hr
      refine hclean r ?_
      have := inForce_of_mem_performed hr
      rwa [inForce_mergeWithoutObsolete, hforce] at this
    refine ih (a.mergePruned e now) (b.merge e) ?_ (fun r => ?_) ?_
    · show DeltaReplicatedData.merge _ _ = DeltaReplicatedData.merge _ _
      rw [cleanupPerformed_eq_self fun r hr => hdata ▸ (hperformed r hr).1,
        cleanupPerformed_eq_self fun r hr => (hperformed r hr).2, hdata]
    · have h1 : (a.mergePruned e now).pruning.InForce now r ↔ _ :=
        inForce_mergeWithoutObsolete
      have h2 : (b.merge e).pruning.InForce now r ↔ _ := inForce_merge
      rw [h1, h2, hforce]
    · -- the merged envelope stands for the two
      intro marked hmarked r hr f hf
      have hsplit : ∃ m ∈ b :: e :: rest, m.pruning.InForce now r := by
        rcases mem_cons.mp hmarked with rfl | hmarked
        · rcases inForce_merge.mp hr with hr | hr
          · exact ⟨b, mem_cons_self, hr⟩
          · exact ⟨e, mem_cons_of_mem _ mem_cons_self, hr⟩
        · exact ⟨marked, mem_cons_of_mem _ (mem_cons_of_mem _ hmarked), hr⟩
      obtain ⟨m, hm, hmr⟩ := hsplit
      rcases mem_cons.mp hf with rfl | hf
      · by_contra hneed
        rw [Bool.not_eq_false] at hneed
        rcases needPruningFrom_merge b.data e.data r hneed with hn | hn
        · rw [h m hm r hmr b mem_cons_self] at hn
          cases hn
        · rw [h m hm r hmr e (mem_cons_of_mem _ mem_cons_self)] at hn
          cases hn
      · exact h m hm r hmr f (mem_cons_of_mem _ (mem_cons_of_mem _ hf))

/-- Good data keep their contributions when they are merged. -/
structure KeepsContributions (Good : D → Prop) : Prop where
  good_merge : ∀ a b, Good a → Good b → Good (merge a b)
  left : ∀ a b (r : R), Good a → needPruningFrom a r = true → needPruningFrom (merge a b) r = true
  right : ∀ a b (r : R), Good b → needPruningFrom b r = true → needPruningFrom (merge a b) r = true

lemma KeepsContributions.foldl (hG : KeepsContributions Good) {r : R} (es : List (DataEnvelope D R))
    (e : DataEnvelope D R) (hgood : ∀ e' ∈ e :: es, Good e'.data)
    (h : ∃ e' ∈ e :: es, needPruningFrom e'.data r = true) :
    needPruningFrom (es.foldl DataEnvelope.merge e).data r = true := by
  induction es generalizing e with
  | nil =>
    obtain ⟨e', he', h⟩ := h
    obtain rfl := mem_singleton.mp he'
    exact h
  | cons f es ih =>
    have hge : Good e.data := hgood e mem_cons_self
    have hgf : Good f.data := hgood f (mem_cons_of_mem _ mem_cons_self)
    have hrest : ∀ e' ∈ es, Good e'.data := fun e' he' =>
      hgood e' (mem_cons_of_mem _ (mem_cons_of_mem _ he'))
    refine ih (e.merge f) ?_ ?_
    · intro e' he'
      rcases mem_cons.mp he' with rfl | he'
      · exact hG.good_merge e.data f.data hge hgf
      · exact hrest e' he'
    · obtain ⟨e', he', h⟩ := h
      rcases mem_cons.mp he' with rfl | he'
      · exact ⟨_, mem_cons_self, hG.left e'.data f.data r hge h⟩
      · rcases mem_cons.mp he' with rfl | he'
        · exact ⟨_, mem_cons_self, hG.right e.data e'.data r hgf h⟩
        · exact ⟨e', mem_cons_of_mem _ he', h⟩

lemma respectsPruning_of_noPrunedContribution [LawfulPruning D Δ R]
    (hresult : joinAll es = some result) (h : NoPrunedContribution now es) :
    RespectsPruning now es result := by
  cases es with
  | nil => cases hresult
  | cons e es =>
    cases hresult
    refine ⟨fun r hr => ?_, ?_⟩
    · obtain ⟨marked, hmarked, hforce⟩ := (inForce_foldl_merge now r es e).mp hr
      by_contra hneed
      rw [Bool.not_eq_false] at hneed
      obtain ⟨e', he', hn⟩ := needPruningFrom_foldl_merge es e hneed
      rw [h marked hmarked r hforce e' he'] at hn
      cases hn
    · rw [joinPruned, Option.map_some, foldl_mergePruned es e e rfl (fun r => Iff.rfl) h]

lemma noPrunedContribution_of_respectsPruning (hG : KeepsContributions Good)
    (hgood : ∀ e ∈ es, Good e.data) (hresult : joinAll es = some result)
    (h : RespectsPruning now es result) : NoPrunedContribution now es := by
  cases es with
  | nil => cases hresult
  | cons e es =>
    cases hresult
    intro marked hmarked r hforce e' he'
    by_contra hneed
    rw [Bool.not_eq_false] at hneed
    have hclean := h.1 r ((inForce_foldl_merge now r es e).mpr ⟨marked, hmarked, hforce⟩)
    rw [hG.foldl es e hgood ⟨e', he', hneed⟩] at hclean
    cases hclean

/-- **A read respects the pruning markers of its replies where, and for data that keep their
contributions only where, no reply holds a contribution that another one declares pruned.** -/
theorem read_respects_pruning [LawfulPruning D Δ R] {key : K} {consistency : ReadConsistency}
    {remoteNodes : List R} {localValue : Option (DataEnvelope D R)} {s : ReadAggregatorState K D R}
    (hnew : ReadAggregatorState.new key consistency remoteNodes localValue = .ok s)
    {replies : List (R × Option (DataEnvelope D R))} {result : DataEnvelope D R}
    (hout : (s.recordAll replies).outcome = .success result) (now : ℕ) :
    let es := localValue.toList ++ accepted remoteNodes ∅ replies
    (NoPrunedContribution now es → RespectsPruning now es result) ∧
      ∀ Good : D → Prop, KeepsContributions Good → (∀ e ∈ es, Good e.data) →
        (RespectsPruning now es result ↔ NoPrunedContribution now es) := by
  intro es
  have hresult := joinAll_of_success hnew hout
  refine ⟨respectsPruning_of_noPrunedContribution hresult, fun Good hG hgood => ⟨?_, ?_⟩⟩
  · exact noPrunedContribution_of_respectsPruning hG hgood hresult
  · exact respectsPruning_of_noPrunedContribution hresult

/-! ## The data types keep their contributions -/

section

omit [DeltaReplicatedData D Δ] [RemovedNodePruning D R]

lemma GCounter.keepsContributions : KeepsContributions (Positive : GCounter R → Prop) where
  good_merge a _ _ hb := hb.raise a.state
  left _ _ _ ha h := ha.isSome_lookup_raise_left h
  right _ _ _ _ h := isSome_lookup_raise_right h

lemma PNCounter.keepsContributions : KeepsContributions (Positive : PNCounter R → Prop) where
  good_merge a _ _ hb := ⟨hb.1.raise a.increments.state, hb.2.raise a.decrements.state⟩
  left _ _ _ ha h := needPruningFrom_iff.mpr <| (needPruningFrom_iff.mp h).imp
    ha.1.isSome_lookup_raise_left ha.2.isSome_lookup_raise_left
  right _ _ _ _ h := needPruningFrom_iff.mpr <| (needPruningFrom_iff.mp h).imp
    isSome_lookup_raise_right isSome_lookup_raise_right

lemma ORSet.keepsContributions {T : Type*} [LinearOrder T] :
    KeepsContributions fun s : ORSet T R => s.versionVector.Positive where
  good_merge _ _ _ hb := hb.merge _
  left _ _ _ ha h := FinMap.Positive.isSome_lookup_raise_left ha h
  right _ _ _ _ h := isSome_lookup_raise_right h

end

/-! ## A reply from before the pruning -/

namespace StaleReply

/-- Replica 1 has taken over the count of replica 0, and says so. -/
def pruned : DataEnvelope (GCounter ℕ) ℕ :=
  ⟨⟨Finmap.singleton 1 8, none⟩, ⟨Finmap.singleton 0 (.performed ⟨100⟩)⟩⟩

/-- The same counter before the pruning. -/
def stale : DataEnvelope (GCounter ℕ) ℕ :=
  ⟨⟨(Finmap.singleton 0 5 : FinMap ℕ ℕ).insert 1 3, none⟩, ⟨∅⟩⟩

/-- A majority read of replica 1 among the replicas 1 and 2. -/
def started : ReadAggregatorState Unit (GCounter ℕ) ℕ := ⟨(), [2], 1, 0, ∅, some pruned⟩

def answer : DataEnvelope (GCounter ℕ) ℕ := pruned.merge stale

lemma started_eq : new () (.majority 0) [2] (some pruned) = .ok started := rfl

lemma outcome_answer : (started.recordAll [(2, some stale)]).outcome = .success answer := by
  rw [outcome_success_iff]
  exact ⟨by decide, by decide +kernel, by decide +kernel⟩

/-- The count of replica 0 is returned twice. -/
theorem removed_replica_counted_twice :
    ReadAggregatorState.new () (.majority 0) [2] (some pruned) = .ok started ∧
      (started.recordAll [(2, some stale)]).outcome = .success answer ∧
      answer.pruning.InForce 0 0 ∧ answer.data.needPruningFrom 0 = true ∧
      (joinPruned 0 [pruned, stale]).map (·.data) ≠ some answer.data := by
  refine ⟨started_eq, outcome_answer, ?_, by decide +kernel, by decide +kernel⟩
  exact ⟨.performed ⟨100⟩, by decide +kernel, rfl, by decide⟩

/-- A reply that has been pruned as well is returned as it is. -/
theorem pruned_replies_respected :
    (started.recordAll [(2, some pruned)]).outcome = .success (pruned.merge pruned) ∧
      RespectsPruning 0 [pruned, pruned] (pruned.merge pruned) := by
  have hout : (started.recordAll [(2, some pruned)]).outcome = .success (pruned.merge pruned) := by
    rw [outcome_success_iff]
    exact ⟨by decide, by decide +kernel, by decide +kernel⟩
  have hall : ∀ e ∈ (some pruned).toList ++ accepted [2] ∅ [(2, some pruned)], e = pruned := by
    decide +kernel
  have hpositive : pruned.data.Positive := by decide
  refine ⟨hout, ((read_respects_pruning started_eq hout 0).2 GCounter.Positive
    GCounter.keepsContributions fun e he => hall e he ▸ hpositive).mpr ?_⟩
  intro marked hmarked r hforce e he
  obtain rfl := hall marked hmarked
  obtain rfl := hall e he
  obtain ⟨m, hm, -⟩ := hforce
  have hr : r ∈ pruned.pruning.states := FinMap.mem_iff_isSome.mpr (Option.isSome_of_eq_some hm)
  obtain rfl := (Finmap.mem_singleton _ _ _).mp hr
  decide

end StaleReply

end Kairo.DistributedData
