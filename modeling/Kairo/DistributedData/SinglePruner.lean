import Kairo.Lib.Machine
import Kairo.DistributedData.Counters
import Kairo.DistributedData.PruningOwners
import Kairo.DistributedData.PruningTick

/-!
# One replica prunes

Replicas that exchange envelopes and run pruning ticks.  A message can be delivered at any time and any
number of times, until it is lost.  As long as no tick replaces the marker of another owner, and performed
markers outlast the round of pruning that they end, a pruning is performed by one replica only until the
marker of its performance expires.  The code replaces such markers: then a marker that has been replaced
comes back with the marks it had collected, and two replicas perform.
-/

set_option linter.unusedSectionVars false

namespace Kairo.DistributedData

open Kairo.Lib DeltaReplicatedData RemovedNodePruning ReplicatorState Option
open PruningView hiding marker

/-! ## Replicas and messages -/

/-- The replicators, the messages, the prunings that have been performed for each key and removed
replica, and the latest time that any clock has shown. -/
structure PruningWorld (K D R : Type*) where
  nodes : R → PruningNode K D R
  messages : List (K × DataEnvelope D R)
  performances : K → R → List (Performance R)
  latest : ℕ

inductive PruningEvent (K D Δ R : Type*)
  | update (r : R) (key : K) (initial : D) (modify : D → Except CrdtError D)
  | recordRemoved (r removed : R) (time : ℕ)
  | markSeen (r : R)
  | send (r : R) (key : K)
  | receiveGossip (r : R) (i now : ℕ)
  | receiveWrite (r : R) (i now : ℕ)
  | receiveDelta (r : R) (i : ℕ) (d : Δ) (now : ℕ)
  | tick (tick : RemovedNodePruningTick R)
  | lose (i : ℕ)

namespace PruningEvent

variable {K D Δ R : Type*}

def replica : PruningEvent K D Δ R → Option R
  | .update r .. | .recordRemoved r .. | .markSeen r | .send r _ | .receiveGossip r ..
  | .receiveWrite r .. | .receiveDelta r .. => some r
  | .tick t => some t.selfReplica
  | .lose _ => none

/-- What the replica's clock shows, where the event reads it. -/
def now : PruningEvent K D Δ R → ℕ
  | .receiveGossip _ _ now | .receiveWrite _ _ now | .receiveDelta _ _ _ now => now
  | .tick t => t.nowMillis
  | _ => 0

end PruningEvent

namespace PruningWorld

section Updates

variable {K D R : Type*} [LinearOrder R]

def setNode (w : PruningWorld K D R) (r : R) (node : PruningNode K D R) : PruningWorld K D R :=
  { w with nodes := Function.update w.nodes r node }

def setState (w : PruningWorld K D R) (r : R) (state : ReplicatorState K (DataEnvelope D R)) :
    PruningWorld K D R :=
  w.setNode r { w.nodes r with state := state }

/-- A clock shows `now`. -/
def observe (w : PruningWorld K D R) (now : ℕ) : PruningWorld K D R :=
  { w with latest := max w.latest now }

end Updates

section Machine

variable {K D Δ R : Type*} [LinearOrder K] [DecidableEq D] [LinearOrder R] [DeltaReplicatedData D Δ]
  [RemovedNodePruning D R]

/-- One tick, with the prunings it performs. -/
def runTick (w : PruningWorld K D R) (tick : RemovedNodePruningTick R) : PruningWorld K D R :=
  { (w.observe tick.nowMillis).setNode tick.selfReplica
      ((w.nodes tick.selfReplica).runRemovedNodePruningTick tick).1 with
    performances := fun key x =>
      if (w.nodes tick.selfReplica).performs tick key x then
        w.performances key x ++ [⟨tick.selfReplica, tick.pruningPerformed.obsoleteAtMillis,
          max w.latest tick.nowMillis⟩]
      else w.performances key x }

/-- What an event of a live replica leads to. -/
def handle (w : PruningWorld K D R) : PruningEvent K D Δ R → Option (PruningWorld K D R)
  | .update r key initial modify =>
    ((w.nodes r).state.updateEnvelope key initial modify).toOption.map fun result =>
      w.setState r result.1
  | .recordRemoved r removed time => some (w.setNode r { w.nodes r with
      removedNodePruning := ((w.nodes r).removedNodePruning.recordRemoved removed time).1 })
  | .markSeen r => some (w.setState r ((w.nodes r).state.markPruningSeen r).1)
  | .send r key => ((w.nodes r).state.entries.lookup key).map fun e =>
      { w with messages := w.messages ++ [(key, e)] }
  | .receiveGossip r i now => w.messages[i]?.map fun m =>
      (w.observe now).setState r
        ((w.nodes r).state.writeFullPruned m.1 (m.2.addPruningSeen r) now).1
  | .receiveWrite r i now => w.messages[i]?.map fun m =>
      (w.observe now).setState r
        (((w.nodes r).state.writeFullPruned m.1 m.2 now).1.markKeyPruningSeen m.1 r).1
  | .receiveDelta r i d now => w.messages[i]?.map fun m =>
      (w.observe now).setState r
        (((w.nodes r).state.writeDeltaPruned m.1 d m.2.pruning now).1.markKeyPruningSeen m.1 r).1
  | .tick tick => some (w.runTick tick)
  | .lose i => some { w with messages := w.messages.eraseIdx i }

/-- Ticks run with the other live replicas. -/
def Fits (live : Finset R) : PruningEvent K D Δ R → Prop
  | .tick tick => tick.liveReplicas = live.erase tick.selfReplica
  | _ => True

instance (live : Finset R) (event : PruningEvent K D Δ R) : Decidable (Fits live event) := by
  cases event <;> unfold Fits <;> infer_instance

/-- The runs of the live replicas, from any stored values without markers. -/
def machine (live : Finset R) : Machine (PruningWorld K D R) (PruningEvent K D Δ R) where
  init w := (∀ r key e, (w.nodes r).state.entries.lookup key = some e → e.pruning = .new) ∧
    w.messages = [] ∧ (∀ key x, w.performances key x = [])
  step w event :=
    if (∀ r ∈ event.replica, r ∈ live) ∧ Fits live event then w.handle event else none

/-- A marker with the property is stored or on its way. -/
def Holding (w : PruningWorld K D R) (key : K) (x : R) (f : PruningState R → Bool) : Prop :=
  (∃ message ∈ w.messages, message.1 = key ∧ (message.2.pruning.get x).any f = true) ∨
    ∃ r, ((w.nodes r).state.marker key x).any f = true

/-- A performed marker that has expired when a clock shows `now`. -/
def Expired (w : PruningWorld K D R) (now : ℕ) (key : K) (x : R) : Prop :=
  w.Holding key x (·.isObsolete (max w.latest now))

/-- A tick does not replace the marker of another owner, initializes one only after the expired ones are
gone, and performs with a deadline that no clock has reached. -/
def KeepsOwners (w : PruningWorld K D R) (tick : RemovedNodePruningTick R) : Prop :=
  ∀ key x, (w.nodes tick.selfReplica).replacesOwner tick key x = false ∧
    ((w.nodes tick.selfReplica).starts tick key x = true → ¬ w.Expired tick.nowMillis key x) ∧
    ((w.nodes tick.selfReplica).performs tick key x = true →
      max w.latest tick.nowMillis < tick.pruningPerformed.obsoleteAtMillis)

/-- Ticks keep the owners of markers, and where a performed marker has expired no initialized one is
held. -/
def Orderly (w : PruningWorld K D R) (event : PruningEvent K D Δ R) : Prop :=
  (∀ key x, w.Expired event.now key x → ¬ w.Holding key x (!·.isPerformed)) ∧
    match event with
    | .tick tick => w.KeepsOwners tick
    | _ => True

end Machine

/-! ## Markers at one replica -/

section

variable {K D Δ R : Type*} [LinearOrder K] [DecidableEq D] [LinearOrder R]
  {known : PruningState R → Prop} {old new : Option (PruningState R)} {now : ℕ}

/-- The markers of one removed replica in the value of one key. -/
def view (w : PruningWorld K D R) (key : K) (x : R) : PruningView R where
  marker r := (w.nodes r).state.marker key x
  sent := {m | ∃ message ∈ w.messages, message.1 = key ∧ message.2.pruning.get x = some m}

lemma holding_of_holds {w : PruningWorld K D R} {key : K} {x : R} {m : PruningState R}
    {f : PruningState R → Bool} (h : (w.view key x).Holds m) (hf : f m = true) :
    w.Holding key x f := by
  rcases h with ⟨message, hmem, hkey, hm⟩ | ⟨r, hm⟩
  · exact .inl ⟨message, hmem, hkey, by rw [hm]; exact hf⟩
  · have hr : (w.nodes r).state.marker key x = some m := hm
    exact .inr ⟨r, by rw [hr]; exact hf⟩

lemma view_setNode (w : PruningWorld K D R) (r : R) (node : PruningNode K D R) (key : K) (x : R) :
    (w.setNode r node).view key x = (w.view key x).setMarker r (node.state.marker key x) := by
  refine PruningView.mk.injEq .. |>.mpr ⟨funext fun q => ?_, rfl⟩
  unfold setNode view
  dsimp only
  rw [Function.update_apply, Function.update_apply]
  split_ifs <;> rfl

/-- The marker goes from `old` to `new` by merging and marking; a performed marker that has expired may
be dropped. -/
def Takes (known : PruningState R → Prop) (r : R) (now : ℕ) (old new : Option (PruningState R)) :
    Prop :=
  ∃ joined, Absorbs known r old joined ∧ (new = joined ∨ new = joined.filter (!·.isObsolete now))

lemma Takes.of_absorbs {r : R} (h : Absorbs known r old new) : Takes known r now old new :=
  ⟨new, h, .inl rfl⟩

lemma Takes.addSeen {r : R} (h : Takes known r now old new) :
    Takes known r now old (new.map (·.addSeen r)) := by
  obtain ⟨joined, habsorbs, rfl | rfl⟩ := h
  · exact .of_absorbs habsorbs.addSeen
  · refine ⟨joined.map (·.addSeen r), habsorbs.addSeen, .inr ?_⟩
    have hsame : ∀ m : PruningState R, (m.addSeen r).isObsolete now = m.isObsolete now := by
      intro m
      cases m <;> rfl
    cases joined with
    | none => rfl
    | some m => simp only [map_some, Option.filter, hsame]; split_ifs <;> rfl

lemma takes_mergeWithoutObsolete {r x : R} {t t' : PruningTable R}
    (ht : ∀ m, t.get x = some m → known m) (ht' : Absorbs known r none (t'.get x)) :
    Takes known r now (t.get x) ((t.mergeWithoutObsolete t' now).get x) := by
  have hjoined : Absorbs known r (t.get x) ((t.merge t').get x) := by
    rw [PruningTable.get_merge]
    cases hm : t.get x with
    | none =>
      cases hm' : t'.get x with
      | none => exact .of_known nofun
      | some m' =>
        rw [hm'] at ht'
        exact ht'
    | some m =>
      cases hm' : t'.get x with
      | none =>
        refine .refl fun s hs => ?_
        cases hs
        exact ht m hm
      | some m' =>
        rw [hm'] at ht'
        exact .merge (ht m hm) ht'
  rw [PruningTable.get_mergeWithoutObsolete]
  exact ⟨_, hjoined, .inr rfl⟩

variable {s : ReplicatorState K (DataEnvelope D R)} {key key' : K} {x : R}

lemma marker_setData (e : DataEnvelope D R) :
    (s.setData key e).1.marker key' x = if key' = key then e.pruning.get x else s.marker key' x := by
  rw [marker, setData, FinMap.lookup_insert, marker]
  split_ifs <;> rfl

lemma marker_markKeyPruningSeen (node : R) :
    (s.markKeyPruningSeen key node).1.marker key' x =
      if key' = key then (s.marker key' x).map (·.addSeen node) else s.marker key' x := by
  unfold markKeyPruningSeen
  cases he : s.entries.lookup key with
  | none =>
    split_ifs with hkey
    · subst hkey
      rw [marker, he]
      rfl
    · rfl
  | some e =>
    rw [marker_setData]
    split_ifs with hkey
    · subst hkey
      rw [marker, he]
      exact e.pruning.get_markAllSeenBy x node
    · rfl

lemma Takes.markKeyPruningSeen {r : R} (h : Takes known r now old (s.marker key' x)) :
    Takes known r now old ((s.markKeyPruningSeen key r).1.marker key' x) := by
  rw [marker_markKeyPruningSeen]
  split_ifs
  · exact h.addSeen
  · exact h

variable [DeltaReplicatedData D Δ]

lemma marker_updateEnvelope (key' : K) (x : R) {initial : D} {modify : D → Except CrdtError D}
    {result : ReplicatorState K (DataEnvelope D R) × Option Δ}
    (h : s.updateEnvelope key initial modify = .ok result) :
    result.1.marker key' x = s.marker key' x := by
  unfold updateEnvelope at h
  split at h
  · cases h
  · cases h
    rw [marker_setData]
    split_ifs with hkey
    · subst hkey
      rw [marker]
      cases s.entries.lookup key' <;> rfl
    · rfl

variable [RemovedNodePruning D R] {known : PruningState R → Prop} {r : R} {now : ℕ}
  {e : DataEnvelope D R}

lemma takes_writeFullPruned (hs : ∀ m, s.marker key' x = some m → known m)
    (he : key' = key → Absorbs known r none (e.pruning.get x)) :
    Takes known r now (s.marker key' x) ((s.writeFullPruned key e now).1.marker key' x) := by
  rw [writeFullPruned, marker_setData]
  split_ifs with hkey
  · subst hkey
    rw [marker] at hs ⊢
    cases hl : s.entries.lookup key' with
    | none => exact .of_absorbs (he rfl)
    | some existing =>
      rw [hl] at hs
      exact takes_mergeWithoutObsolete hs (he rfl)
  · exact .of_absorbs (.refl hs)

lemma takes_writeDeltaPruned (hs : ∀ m, s.marker key' x = some m → known m) (d : Δ)
    {t : PruningTable R} (ht : key' = key → Absorbs known r none (t.get x)) :
    Takes known r now (s.marker key' x) ((s.writeDeltaPruned key d t now).1.marker key' x) := by
  rw [writeDeltaPruned, marker_setData]
  split_ifs with hkey
  · subst hkey
    rw [marker] at hs ⊢
    cases hl : s.entries.lookup key' with
    | none => exact takes_mergeWithoutObsolete (t := .new) (by rintro _ ⟨⟩) (ht rfl)
    | some existing =>
      rw [hl] at hs
      exact takes_mergeWithoutObsolete hs (ht rfl)
  · exact .of_absorbs (.refl hs)

end

/-! ## The invariant of a run -/

section

variable {K D Δ R : Type*} [LinearOrder K] [DecidableEq D] [LinearOrder R]

/-- The prunings of every removed replica in every value go in rounds. -/
def Invariant (live : Finset R) (w : PruningWorld K D R) : Prop :=
  ∀ key x, Rounds live (w.view key x) (w.performances key x) w.latest

variable {live : Finset R} {w w' : PruningWorld K D R} {key : K} {r x : R} {now : ℕ}

lemma takes_rounds {v : PruningView R} {performances : List (Performance R)} {latest : ℕ}
    {new : Option (PruningState R)} (h : Rounds live v performances latest) (hnow : now ≤ latest)
    (ht : Takes v.Holds r now (v.marker r) new) :
    Rounds live (v.setMarker r new) performances latest := by
  obtain ⟨joined, habsorbs, rfl | rfl⟩ := ht
  · exact h.absorb habsorbs
  · have hexpire := (h.absorb habsorbs).expire hnow r
    rwa [marker_setMarker, if_pos rfl, setMarker_setMarker] at hexpire

lemma Invariant.setNode (h : Invariant live w) {node : PruningNode K D R} (hnow : now ≤ w.latest)
    (htakes : ∀ key x, Takes (w.view key x).Holds r now ((w.view key x).marker r)
      (node.state.marker key x)) : Invariant live (w.setNode r node) := by
  intro key x
  rw [view_setNode]
  exact takes_rounds (h key x) hnow (htakes key x)

lemma Invariant.observe (h : Invariant live w)
    (hout : ∀ key x, w.Expired now key x → ¬ w.Holding key x (!·.isPerformed)) :
    Invariant live (w.observe now) := by
  intro key x
  refine (h key x).observe fun p hp hle i hi => ?_
  exact hout key x (holding_of_holds hp (decide_eq_true hle)) (holding_of_holds hi rfl)

lemma takes_self (w : PruningWorld K D R) (r : R) (now : ℕ) (key : K) (x : R) :
    Takes (w.view key x).Holds r now ((w.view key x).marker r) ((w.view key x).marker r) :=
  .of_absorbs (.refl fun _ hm => .inr ⟨r, hm⟩)

lemma absorbs_message (w : PruningWorld K D R) (r x : R) {i : ℕ} {m : K × DataEnvelope D R}
    (hm : w.messages[i]? = some m) (hkey : key = m.1) :
    Absorbs (w.view key x).Holds r none (m.2.pruning.get x) :=
  .of_known fun _ hs => .inl ⟨m, List.mem_of_getElem? hm, hkey.symm, hs⟩

/-- The stored markers stay, and what is on its way was held before. -/
lemma Invariant.messages (h : Invariant live w) {messages : List (K × DataEnvelope D R)}
    (hheld : ∀ message ∈ messages, ∀ x m, message.2.pruning.get x = some m →
      (w.view message.1 x).Holds m) : Invariant live { w with messages := messages } := by
  intro key x
  refine (h key x).congr_holds rfl fun m hm => ?_
  rcases hm with ⟨message, hmem, rfl, hget⟩ | hr
  · exact hheld message hmem x m hget
  · exact .inr hr

lemma Invariant.send (h : Invariant live w) {e : DataEnvelope D R}
    (he : (w.nodes r).state.entries.lookup key = some e) :
    Invariant live { w with messages := w.messages ++ [(key, e)] } := by
  refine h.messages fun message hmem x m hget => ?_
  rcases List.mem_append.mp hmem with hmem | hmem
  · exact .inl ⟨message, hmem, rfl, hget⟩
  · obtain rfl := List.mem_singleton.mp hmem
    have hstored : (w.nodes r).state.marker key x = some m := by
      rw [marker, he]
      exact hget
    exact .inr ⟨r, hstored⟩

variable [RemovedNodePruning D R]

lemma performances_runTick (tick : RemovedNodePruningTick R) : (w.runTick tick).performances key x =
    if (w.nodes tick.selfReplica).performs tick key x then w.performances key x ++
      [⟨tick.selfReplica, tick.pruningPerformed.obsoleteAtMillis, max w.latest tick.nowMillis⟩]
    else w.performances key x := rfl

lemma view_runTick (w : PruningWorld K D R) (tick : RemovedNodePruningTick R) (key : K) (x : R) :
    (w.runTick tick).view key x = (w.view key x).setMarker tick.selfReplica
      (((w.nodes tick.selfReplica).runRemovedNodePruningTick tick).1.state.marker key x) :=
  (w.observe tick.nowMillis).view_setNode tick.selfReplica
    ((w.nodes tick.selfReplica).runRemovedNodePruningTick tick).1 key x

/-- A ready marker is one that the replica owns and that all live replicas have seen. -/
lemma of_isReady {initialized : Option (PruningState R)}
    (h : initialized.any (·.isReady r (live.erase r)) = true) :
    ∃ i, initialized = some (.initialized i) ∧ i.owner = r ∧ ∀ q ∈ live, q ≠ r → q ∈ i.seen := by
  cases initialized with
  | none => cases h
  | some m =>
    cases m with
    | performed m => cases h
    | initialized i =>
      have hboth : (decide (i.owner = r) && i.isSeenByAll (live.erase r)) = true := h
      rw [Bool.and_eq_true, decide_eq_true_iff] at hboth
      refine ⟨i, rfl, hboth.1, fun q hq hne => ?_⟩
      have hall := of_decide_eq_true hboth.2 q (Finset.mem_erase.mpr ⟨hne, hq⟩)
      exact hall.resolve_left fun he => hne (he.trans hboth.1)

/-- A tick initializes, performs and drops, in that order. -/
lemma Invariant.runTick {tick : RemovedNodePruningTick R}
    (h : Invariant live (w.observe tick.nowMillis)) (hself : tick.selfReplica ∈ live)
    (hlive : tick.liveReplicas = live.erase tick.selfReplica) (hkeep : w.KeepsOwners tick) :
    Invariant live (w.runTick tick) := by
  intro key x
  have hrounds : Rounds live (w.view key x) (w.performances key x) (max w.latest tick.nowMillis) :=
    h key x
  rw [view_runTick, performances_runTick]
  by_cases hrun : tick.unreachableReplicas = ∅
  · obtain ⟨howner, hstarts, hperforms⟩ := hkeep key x
    obtain ⟨performed, hperform, hfinal⟩ := (w.nodes tick.selfReplica).marker_tick tick key x hrun
    have hinit : Rounds live ((w.view key x).setMarker tick.selfReplica
        (((w.nodes tick.selfReplica).initializeReady tick).1.marker key x)) (w.performances key x)
        (max w.latest tick.nowMillis) := by
      rcases (w.nodes tick.selfReplica).marker_initializeReady tick key x hrun howner with
        heq | ⟨hnone, heq⟩
      · rw [heq]
        exact (setMarker_self (w.view key x) tick.selfReplica).symm ▸ hrounds
      · rw [heq]
        refine hrounds.start hnone fun p hp => not_le.mp fun hle => ?_
        refine hstarts ?_ (holding_of_holds hp (decide_eq_true hle))
        rw [PruningNode.starts, hnone, heq, decide_eq_true hrun]
        rfl
    rw [hfinal]
    rcases hperform with ⟨hno, rfl⟩ | ⟨hyes, hready, rfl⟩
    · rw [hno, if_neg Bool.false_ne_true]
      have hexpire := hinit.expire (le_max_right _ _) tick.selfReplica
      rwa [marker_setMarker, if_pos rfl, setMarker_setMarker] at hexpire
    · rw [hyes, if_pos rfl]
      rw [hlive] at hready
      obtain ⟨i, hi, hown, hseen⟩ := of_isReady hready
      rw [hi] at hinit
      have hdone := hinit.perform hself (by rw [marker_setMarker, if_pos rfl]) hown hseen
        (hperforms hyes)
      have hexpire := hdone.expire (le_max_right _ _) tick.selfReplica
      rwa [marker_setMarker, if_pos rfl, setMarker_setMarker, setMarker_setMarker] at hexpire
  · obtain ⟨hno, hsame⟩ := (w.nodes tick.selfReplica).marker_tick_skipped tick key x hrun
    rw [hno, hsame, if_neg Bool.false_ne_true]
    exact (setMarker_self (w.view key x) tick.selfReplica).symm ▸ hrounds

variable [DeltaReplicatedData D Δ]

lemma Invariant.handle (h : Invariant live w) {event : PruningEvent K D Δ R}
    (hreplica : ∀ r ∈ event.replica, r ∈ live) (hfits : Fits live event) (hok : w.Orderly event)
    (hstep : w.handle event = some w') : Invariant live w' := by
  have hobserved := h.observe hok.1
  cases event with
  | update r key initial modify =>
    obtain ⟨result, hresult, rfl⟩ := map_eq_some_iff.mp hstep
    refine h.setNode (Nat.zero_le _) fun key' x => ?_
    have hsome : (w.nodes r).state.updateEnvelope key initial modify = .ok result := by
      cases hu : (w.nodes r).state.updateEnvelope key initial modify with
      | error e => rw [hu] at hresult; cases hresult
      | ok result' => rw [hu] at hresult; cases hresult; rfl
    have hmarker := marker_updateEnvelope key' x hsome
    rw [hmarker]
    exact takes_self w r 0 key' x
  | recordRemoved r removed time =>
    cases hstep
    exact h.setNode (Nat.zero_le _) fun key' x => takes_self w r 0 key' x
  | markSeen r =>
    cases hstep
    refine h.setNode (Nat.zero_le _) fun key' x => ?_
    rw [marker_markPruningSeen]
    exact (takes_self w r 0 key' x).addSeen
  | send r key =>
    obtain ⟨e, he, rfl⟩ := map_eq_some_iff.mp hstep
    exact h.send he
  | receiveGossip r i now =>
    obtain ⟨m, hm, rfl⟩ := map_eq_some_iff.mp hstep
    refine hobserved.setNode (le_max_right _ _) fun key x => ?_
    refine takes_writeFullPruned (fun s hs => .inr ⟨r, hs⟩) fun hkey => ?_
    have hseen := m.2.pruning.get_markAllSeenBy x r
    rw [DataEnvelope.addPruningSeen, hseen]
    exact (absorbs_message w r x hm hkey).addSeen
  | receiveWrite r i now =>
    obtain ⟨m, hm, rfl⟩ := map_eq_some_iff.mp hstep
    refine hobserved.setNode (le_max_right _ _) fun key x => ?_
    refine Takes.markKeyPruningSeen ?_
    exact takes_writeFullPruned (fun s hs => .inr ⟨r, hs⟩) (absorbs_message w r x hm)
  | receiveDelta r i d now =>
    obtain ⟨m, hm, rfl⟩ := map_eq_some_iff.mp hstep
    refine hobserved.setNode (le_max_right _ _) fun key x => ?_
    refine Takes.markKeyPruningSeen ?_
    exact takes_writeDeltaPruned (fun s hs => .inr ⟨r, hs⟩) d (absorbs_message w r x hm)
  | tick tick =>
    cases hstep
    exact hobserved.runTick (hreplica _ rfl) hfits hok.2
  | lose i =>
    cases hstep
    exact h.messages fun message hmem x m hget =>
      .inl ⟨message, List.mem_of_mem_eraseIdx hmem, rfl, hget⟩

lemma invariant_of_init (h : (machine (Δ := Δ) live).init w) : Invariant live w := by
  obtain ⟨hnone, hmessages, hperformances⟩ := h
  intro key x
  rw [hperformances]
  refine .of_empty ?_
  rintro m (⟨message, hmem, -⟩ | ⟨r, hm⟩)
  · rw [hmessages] at hmem
    cases hmem
  · obtain ⟨e, he, hm⟩ := bind_eq_some_iff.mp hm
    rw [hnone r key e he] at hm
    cases hm

/-- **In every orderly run one replica performs the pruning of a removed replica in a value until the
marker of its performance expires.** -/
theorem single_performer_of_orderly (h : (machine (Δ := Δ) live).Reach Orderly w) key x :
    SinglePerformer (w.performances key x) := by
  have hinv : Invariant live w := by
    refine h.invariant (I := Invariant live) (fun w hw => invariant_of_init hw) ?_
    intro w event w' ih hok hstep
    have hguard : (∀ r ∈ event.replica, r ∈ live) ∧ Fits live event := by
      by_contra hno
      rw [show (machine live).step w event = none from if_neg hno] at hstep
      cases hstep
    rw [show (machine live).step w event = w.handle event from if_pos hguard] at hstep
    exact ih.handle hguard.1 hguard.2 hok hstep
  exact (hinv key x).single

end

end PruningWorld

/-! ## A replaced marker that comes back -/

namespace ReplacedOwner

abbrev World := PruningWorld Unit (GCounter (Fin 3)) (Fin 3)

/-- Replica two is gone; both others hold its count and know about its removal. -/
def start : World where
  nodes _ := ⟨⟨Finmap.singleton () (.new ⟨Finmap.singleton 2 5, none⟩), ∅⟩, ⟨Finmap.singleton 2 0⟩⟩
  messages := []
  performances _ _ := []
  latest := 0

def live : Finset (Fin 3) := {0, 1}

abbrev Event := PruningEvent Unit (GCounter (Fin 3)) (GCounter (Fin 3)) (Fin 3)

abbrev worlds : Machine World Event := PruningWorld.machine live

def tickOf (r : Fin 3) (isLeader : Bool) (now : ℕ) : Event :=
  .tick ⟨r, live.erase r, ∅, 10, 5, now, 100, isLeader⟩

/-- Replica one initializes, and replica zero marks that and sends it back; but both replace the marker
by one of their own in turn, and each gets its marker with the other's mark after all. -/
def events : List Event :=
  [tickOf 1 true 0, .send 1 (), .receiveGossip 0 0 0, .send 0 (),
    tickOf 0 true 0, .send 0 (), .receiveGossip 1 2 0, .send 1 (),
    tickOf 1 true 0, .receiveGossip 1 1 0, tickOf 1 false 0,
    .receiveGossip 0 3 0, tickOf 0 false 0, .send 0 (), .receiveGossip 1 4 0]

lemma init_start : worlds.init start := by
  refine ⟨fun r key e he => ?_, rfl, fun _ _ => rfl⟩
  have hlookup := FinMap.lookup_singleton () key (DataEnvelope.new (R := Fin 3)
    (⟨Finmap.singleton 2 5, none⟩ : GCounter (Fin 3)))
  rw [if_pos rfl] at hlookup
  have hsome := hlookup.symm.trans he
  cases hsome
  rfl

/-- Both replicas perform before a marker expires, and the count of the removed one is there twice. -/
theorem performed_twice : ∃ w : World, worlds.Reachable w ∧
    w.performances () 2 = [⟨1, 100, 0⟩, ⟨0, 100, 0⟩] ∧ ¬ SinglePerformer (w.performances () 2) ∧
      ((w.nodes 1).state.entries.lookup ()).map (fun e => e.data.state.total) = some 10 := by
  obtain ⟨w, hreach, hperformances, htotal⟩ := Machine.Reach.exists_of_exec
    (c := fun _ _ => True)
    (P := fun w : World => w.performances () 2 = [⟨1, 100, 0⟩, ⟨0, 100, 0⟩] ∧
      ((w.nodes 1).state.entries.lookup ()).map (fun e => e.data.state.total) = some 10)
    events init_start (by decide +kernel)
  refine ⟨w, hreach, hperformances, fun hsingle => ?_, htotal⟩
  rw [hperformances] at hsingle
  have heq := (List.pairwise_cons.mp hsingle).1 ⟨0, 100, 0⟩ (by decide) (by decide)
  exact absurd heq (by decide)

instance (w : World) (key : Unit) (x : Fin 3) (f : PruningState (Fin 3) → Bool) :
    Decidable (w.Holding key x f) := by
  unfold PruningWorld.Holding
  infer_instance

instance (w : World) (event : Event) : Decidable (w.Orderly event) := by
  cases event <;> unfold PruningWorld.Orderly PruningWorld.Expired <;>
    dsimp only [PruningWorld.KeepsOwners, PruningWorld.Expired] <;> infer_instance

/-- Replica one performs.  When its marker has expired everywhere and all messages are gone, the count of
the removed replica comes back, and replica zero prunes it again. -/
def rounds : List Event :=
  [tickOf 1 true 0, .send 1 (), .receiveGossip 0 0 0, .send 0 (), .receiveWrite 1 1 0, tickOf 1 false 0,
    .send 1 (), .receiveGossip 0 2 0, tickOf 0 true 0, .lose 0, .lose 0,
    tickOf 0 false 100, tickOf 1 false 100, .lose 0,
    .recordRemoved 0 2 0, .update 0 () .new fun c => .ok ⟨c.state.insert 2 3, none⟩,
    tickOf 0 true 100, .send 0 (), .receiveGossip 1 0 100, .send 1 (), .receiveGossip 0 1 100,
    tickOf 0 false 100]

theorem performed_in_rounds : ∃ w : World, worlds.Reach PruningWorld.Orderly w ∧
    w.performances () 2 = [⟨1, 100, 0⟩, ⟨0, 200, 100⟩] ∧ SinglePerformer (w.performances () 2) := by
  obtain ⟨w, hreach, h⟩ := Machine.Reach.exists_of_exec (c := PruningWorld.Orderly)
    (P := fun w : World => w.performances () 2 = [⟨1, 100, 0⟩, ⟨0, 200, 100⟩]) rounds init_start
    (by decide +kernel)
  exact ⟨w, hreach, h, PruningWorld.single_performer_of_orderly hreach () 2⟩

end ReplacedOwner

end Kairo.DistributedData
