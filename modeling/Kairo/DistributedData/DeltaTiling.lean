import Kairo.DistributedData.DeltaPropagation
import Kairo.DistributedData.PrunedState
import Kairo.DistributedData.Counters
import Kairo.Lib.Machine

/-!
# The ranges of the delta log tile the versions

Runs of a delta log with fixed peers.  Retained entries are always the recorded updates from some
version on, and never start after what some peer has got; so the unsent range of a peer starts where
the last one ended.  As long as no selected range is without a payload the ranges sent to a peer are
consecutive from version one, and a receiver applies each of them.
-/

namespace Kairo.DistributedData

open Kairo.Lib DeltaReplicatedData DeltaPropagationLog List FinMap Nat

/-! ## Numbered updates -/

section

variable {Δ : Type*} {ds : List (Option Δ)} {n : ℕ}

/-- The updates with the versions after `n`. -/
def numberFrom : ℕ → List (Option Δ) → List (ℕ × Option Δ)
  | _, [] => []
  | n, d :: ds => (n + 1, d) :: numberFrom (n + 1) ds

lemma length_numberFrom (n : ℕ) (ds : List (Option Δ)) : (numberFrom n ds).length = ds.length := by
  induction ds generalizing n with
  | nil => rfl
  | cons d ds ih => simp [numberFrom, ih]

lemma map_snd_numberFrom (n : ℕ) (ds : List (Option Δ)) : (numberFrom n ds).map (·.2) = ds := by
  induction ds generalizing n with
  | nil => rfl
  | cons d ds ih => simp [numberFrom, ih]

lemma lt_of_mem_numberFrom {e : ℕ × Option Δ} (h : e ∈ numberFrom n ds) : n < e.1 := by
  induction ds generalizing n with
  | nil => cases h
  | cons d ds ih =>
    rcases mem_cons.mp h with rfl | h
    · exact lt_succ_self n
    · exact (lt_succ_self n).trans (ih h)

lemma pairwise_numberFrom (n : ℕ) (ds : List (Option Δ)) :
    (numberFrom n ds).Pairwise fun e e' => e.1 < e'.1 := by
  induction ds generalizing n with
  | nil => exact List.Pairwise.nil
  | cons d ds ih => exact pairwise_cons.mpr ⟨fun _ h => lt_of_mem_numberFrom h, ih (n + 1)⟩

lemma numberFrom_append (n : ℕ) (ds : List (Option Δ)) (d : Option Δ) :
    numberFrom n (ds ++ [d]) = numberFrom n ds ++ [(n + ds.length + 1, d)] := by
  induction ds generalizing n with
  | nil => rfl
  | cons d' ds ih =>
    have hn : n + 1 + ds.length = n + (ds.length + 1) := by omega
    simp [numberFrom, ih, hn]

lemma mem_numberFrom {v : ℕ} {d : Option Δ} :
    (v, d) ∈ numberFrom n ds ↔ n < v ∧ ds[v - n - 1]? = some d := by
  induction ds generalizing n with
  | nil => simp [numberFrom]
  | cons d' ds ih =>
    rw [numberFrom, mem_cons, ih, Prod.mk.injEq]
    rcases lt_trichotomy v (n + 1) with hv | rfl | hv
    · constructor
      · rintro (⟨rfl, -⟩ | ⟨h, -⟩) <;> omega
      · rintro ⟨h, -⟩
        omega
    · have h0 : n + 1 - n - 1 = 0 := by omega
      rw [h0]
      simp [eq_comm]
    · have h1 : v - n - 1 = v - (n + 1) - 1 + 1 := by omega
      rw [h1, getElem?_cons_succ]
      constructor
      · rintro (⟨rfl, -⟩ | ⟨-, h⟩)
        · omega
        · exact ⟨by omega, h⟩
      · rintro ⟨-, h⟩
        exact .inr ⟨hv, h⟩

lemma entriesAfter_of_le {n v : ℕ} (h : v ≤ n) (ds : List (Option Δ)) :
    entriesAfter (numberFrom n ds) v = numberFrom n ds := by
  refine filter_eq_self.mpr fun e he => ?_
  have := lt_of_mem_numberFrom he
  rw [decide_eq_true_iff]
  omega

lemma entriesAfter_of_ge {n v : ℕ} (h : n ≤ v) (ds : List (Option Δ)) :
    entriesAfter (numberFrom n ds) v = numberFrom v (ds.drop (v - n)) := by
  induction ds generalizing n with
  | nil => simp [numberFrom, entriesAfter]
  | cons d ds ih =>
    rcases Nat.eq_or_lt_of_le h with rfl | hlt
    · rw [entriesAfter_of_le le_rfl, Nat.sub_self, drop_zero]
    · have hdrop : v - n = v - (n + 1) + 1 := by omega
      have hskip : entriesAfter (numberFrom n (d :: ds)) v = entriesAfter (numberFrom (n + 1) ds) v :=
        filter_cons_of_neg (by simpa using succ_le_of_lt hlt)
      rw [hskip, ih hlt, hdrop, drop_succ_cons]

lemma head?_numberFrom (n : ℕ) (d : Option Δ) (ds : List (Option Δ)) :
    (numberFrom n (d :: ds)).head? = some (n + 1, d) := rfl

lemma getLast?_numberFrom (n : ℕ) (h : ds ≠ []) :
    ∃ d, (numberFrom n ds).getLast? = some (n + ds.length, d) := by
  refine ⟨ds.getLast h, ?_⟩
  have hds := dropLast_append_getLast h
  have hlen : ds.length ≠ 0 := fun h0 => h (length_eq_zero_iff.mp h0)
  conv_lhs => rw [← hds]
  rw [numberFrom_append, getLast?_append_cons, length_dropLast]
  have hn : n + (ds.length - 1) + 1 = n + ds.length := by omega
  rw [hn]
  rfl

lemma isSome_mergeDeltaGroup (mergeDeltas : Δ → Δ → Δ) (hne : ds ≠ [])
    (h : ∀ d ∈ ds, d.isSome) : (mergeDeltaGroup mergeDeltas ds).isSome := by
  cases ds with
  | nil => exact absurd rfl hne
  | cons first rest =>
    have hfold : ∀ (rest : List (Option Δ)) (acc : Option Δ), acc.isSome → (∀ d ∈ rest, d.isSome) →
        (rest.foldl (fun acc next => acc.bind fun a => next.map (mergeDeltas a)) acc).isSome := by
      intro rest
      induction rest with
      | nil => exact fun acc hacc _ => hacc
      | cons d rest ih =>
        intro acc hacc hall
        refine ih _ ?_ fun d' hd' => hall d' (mem_cons_of_mem _ hd')
        obtain ⟨a, rfl⟩ := Option.isSome_iff_exists.mp hacc
        obtain ⟨b, rfl⟩ := Option.isSome_iff_exists.mp (hall d mem_cons_self)
        rfl
    exact hfold rest first (h first mem_cons_self) fun d hd => h d (mem_cons_of_mem _ hd)

end

/-! ## Runs of a log -/

/-- A log, all updates recorded per key, and the ranges sent to each node in their order. -/
structure DeltaRun (K R Δ : Type*) where
  log : DeltaPropagationLog K R Δ
  recorded : K → DeltaLog Δ
  sent : R → K → List (DeltaPropagationEntry Δ)

inductive DeltaLogLabel (K Δ : Type*)
  | record (key : K) (delta : Option Δ)
  | collect
  | cleanup

namespace DeltaRun

variable {K R Δ : Type*} [LinearOrder K] [LinearOrder R] (mergeDeltas : Δ → Δ → Δ)

/-- A collection sends what it returns. -/
def collected (s : DeltaRun K R Δ) : DeltaRun K R Δ where
  log := (s.log.collectPropagations mergeDeltas).1
  recorded := s.recorded
  sent node key := s.sent node key ++
    (((s.log.collectPropagations mergeDeltas).2.lookup node).bind (·.lookup key)).toList

def step (s : DeltaRun K R Δ) : DeltaLogLabel K Δ → Option (DeltaRun K R Δ)
  | .record key delta => some { s with
      log := s.log.recordDelta key delta
      recorded := fun key' => if key' = key then s.recorded key ++ [delta] else s.recorded key' }
  | .collect => some (s.collected mergeDeltas)
  | .cleanup => some { s with log := s.log.cleanupDeltaEntries }

def start (nodes : Finset R) (divisor maxDeltaVersions : ℕ) : DeltaRun K R Δ :=
  ⟨.new nodes divisor maxDeltaVersions, fun _ => [], fun _ _ => []⟩

def machine (nodes : Finset R) (divisor maxDeltaVersions : ℕ) :
    Machine (DeltaRun K R Δ) (DeltaLogLabel K Δ) where
  init s := s = start nodes divisor maxDeltaVersions
  step := step mergeDeltas

/-- A collection that selects a range of the key for the node finds a delta for every version of it,
and fewer versions than the limit. -/
def HasPayload (node : R) (key : K) (s : DeltaRun K R Δ) : DeltaLogLabel K Δ → Prop
  | .collect => node ∈ s.log.selectedNodes.1 →
    (s.log.pending s.log.sentToNode key node).length < s.log.maxDeltaVersions ∧
      ∀ e ∈ s.log.pending s.log.sentToNode key node, e.2.isSome
  | _ => True

instance (node : R) (key : K) (s : DeltaRun K R Δ) (i : DeltaLogLabel K Δ) :
    Decidable (HasPayload node key s i) :=
  match i with
  | .collect => inferInstanceAs (Decidable (_ → _))
  | .record _ _ | .cleanup => isTrue trivial

/-- The version up to which updates were selected for the node. -/
def sentTo (s : DeltaRun K R Δ) (node : R) (key : K) : ℕ :=
  DeltaPropagationLog.sentVersion s.log.sentToNode key node

/-! ## The invariant -/

structure Inv (nodes : Finset R) (s : DeltaRun K R Δ) : Prop where
  nodes_eq : s.log.nodes = ordered nodes
  version : ∀ key, s.log.currentVersion key = (s.recorded key).length
  entries : ∀ key, ∃ dropped, s.log.entriesOf key = numberFrom dropped ((s.recorded key).drop dropped) ∧
    dropped ≤ (s.recorded key).length ∧ ∀ node ∈ nodes, dropped ≤ s.sentTo node key
  sentTo : ∀ node key, s.sentTo node key ≤ (s.recorded key).length
  sent : ∀ node key, ∀ e ∈ s.sent node key, e.fromVersion ≤ e.toVersion ∧
    e.toVersion ≤ (s.recorded key).length ∧
    mergeDeltaGroup mergeDeltas ((s.recorded key).range e.fromVersion e.toVersion) = some e.delta

variable {mergeDeltas} {nodes : Finset R} {s : DeltaRun K R Δ} {node : R} {key : K}
  {divisor maxDeltaVersions : ℕ} {e : DeltaPropagationEntry Δ}

section

variable (hI : Inv mergeDeltas nodes s)

include hI

/-- The unsent range of a peer is what was recorded after its last version. -/
lemma Inv.pending (hnode : node ∈ nodes) (key : K) :
    s.log.pending s.log.sentToNode key node =
      numberFrom (s.sentTo node key) ((s.recorded key).drop (s.sentTo node key)) := by
  obtain ⟨dropped, hentries, -, hdropped⟩ := hI.entries key
  have hle := hdropped node hnode
  have hsum : dropped + (s.sentTo node key - dropped) = s.sentTo node key := by omega
  rw [DeltaPropagationLog.pending, hentries]
  refine (entriesAfter_of_ge hle _).trans ?_
  rw [drop_drop, hsum]

lemma Inv.sorted : s.log.Sorted := by
  intro key
  obtain ⟨dropped, hentries, -⟩ := hI.entries key
  rw [hentries]
  exact pairwise_numberFrom _ _

lemma Inv.selectedVersion (hnode : node ∈ nodes) (key : K) :
    s.log.selectedVersion s.log.sentToNode key node = (s.recorded key).length := by
  have hle := hI.sentTo node key
  rw [DeltaPropagationLog.selectedVersion, hI.pending hnode key]
  by_cases hnil : (s.recorded key).drop (s.sentTo node key) = []
  · rw [hnil]
    exact le_antisymm hle (drop_eq_nil_iff.mp hnil)
  · obtain ⟨d, hd⟩ := getLast?_numberFrom (s.sentTo node key) hnil
    rw [hd]
    dsimp only
    rw [length_drop]
    omega

/-- The offered range, if there is one, runs to the last recorded version. -/
lemma Inv.offered (hnode : node ∈ nodes) (key : K)
    (h : s.log.offered mergeDeltas s.log.sentToNode key node = some e) :
    e.fromVersion = s.sentTo node key + 1 ∧ e.toVersion = (s.recorded key).length ∧
      s.sentTo node key < (s.recorded key).length ∧
      mergeDeltaGroup mergeDeltas ((s.recorded key).drop (s.sentTo node key)) = some e.delta := by
  rw [DeltaPropagationLog.offered, hI.pending hnode key] at h
  cases hds : (s.recorded key).drop (s.sentTo node key) with
  | nil => rw [hds] at h; cases h
  | cons d ds =>
    have hlt : s.sentTo node key < (s.recorded key).length := by
      by_contra hge
      rw [drop_eq_nil_iff.mpr (by omega)] at hds
      cases hds
    have hlen := congrArg length hds
    rw [length_drop] at hlen
    obtain ⟨d', hlast⟩ := getLast?_numberFrom (s.sentTo node key) (cons_ne_nil d ds)
    rw [hds, hlast, head?_numberFrom] at h
    rw [mergeEntryGroup, map_snd_numberFrom] at h
    split_ifs at h
    · cases h
    · obtain ⟨delta, hdelta, rfl⟩ := Option.map_eq_some_iff.mp h
      refine ⟨rfl, ?_, hlt, hdelta⟩
      dsimp only
      omega

end

lemma Inv.start (divisor maxDeltaVersions : ℕ) :
    Inv mergeDeltas nodes (start nodes divisor maxDeltaVersions : DeltaRun K R Δ) where
  nodes_eq := rfl
  version _ := rfl
  entries _ := ⟨0, rfl, le_rfl, fun _ _ => le_rfl⟩
  sentTo _ _ := le_rfl
  sent _ _ _ h := absurd h not_mem_nil

lemma Inv.record (hI : Inv mergeDeltas nodes s) (key : K) (delta : Option Δ) :
    Inv mergeDeltas nodes { s with
      log := s.log.recordDelta key delta
      recorded := fun key' => if key' = key then s.recorded key ++ [delta] else s.recorded key' } := by
  refine ⟨hI.nodes_eq, fun key' => ?_, fun key' => ?_, fun node key' => ?_, fun node key' e he => ?_⟩
  · simp only [recordDelta, currentVersion]
    rw [FinMap.count_insert]
    split_ifs with h
    · rw [length_append, ← hI.version key]
      rfl
    · exact hI.version key'
  · obtain ⟨dropped, hentries, hle, hdropped⟩ := hI.entries key'
    refine ⟨dropped, ?_, ?_, hdropped⟩
    · unfold recordDelta
      dsimp only
      rw [entriesOf, lookup_insert]
      split_ifs with h
      · subst h
        have hlast : dropped + ((s.recorded key').drop dropped).length + 1 =
            s.log.currentVersion key' + 1 := by
          rw [hI.version, length_drop]
          omega
        rw [Option.getD_some, hentries, drop_append_of_le_length hle, numberFrom_append, hlast]
      · exact hentries
    · dsimp only
      split_ifs with h
      · subst h
        rw [length_append]
        omega
      · exact hle
  · have hle := hI.sentTo node key'
    dsimp only [DeltaRun.sentTo, recordDelta] at hle ⊢
    split_ifs with h
    · subst h
      rw [length_append]
      omega
    · exact hle
  · obtain ⟨hfrom, hto, hdelta⟩ := hI.sent node key' e he
    refine ⟨hfrom, ?_, ?_⟩
    · dsimp only
      split_ifs with h
      · subst h
        rw [length_append]
        omega
      · exact hto
    · dsimp only
      split_ifs with h
      · subst h
        rwa [DeltaLog.range, take_append_of_le_length hto]
      · exact hdelta

/-- The smallest version that counts as sent everywhere is one that counts as sent to each peer. -/
lemma smallest_le_sentVersion (sentToNode : FinMap K (FinMap R ℕ)) (key : K) {nodes : List R}
    (hnode : node ∈ nodes) :
    smallestVersionPropagatedToAll key nodes sentToNode ≤
      sentVersion sentToNode key node := by
  unfold smallestVersionPropagatedToAll sentVersion
  cases sentToNode.lookup key with
  | none => exact zero_le _
  | some sent =>
    dsimp only
    split_ifs with hnone hne
    · exact zero_le _
    · rw [not_or, not_exists] at hnone
      have hsome : (sent.lookup node).isSome := by
        cases hl : sent.lookup node with
        | none => exact absurd ⟨hnode, by rw [hl]; rfl⟩ (hnone.2 node)
        | some v => rfl
      refine Finset.min'_le _ _ (Finset.mem_image.mpr ⟨node, ?_, rfl⟩)
      rw [Finmap.mem_keys, mem_iff_isSome]
      exact hsome
    · exact zero_le _

lemma smallest_le_of_forall {sentToNode : FinMap K (FinMap R ℕ)} {nodes : List R}
    (h : ∀ node, sentVersion sentToNode key node ≤ n) :
    smallestVersionPropagatedToAll key nodes sentToNode ≤ n := by
  unfold smallestVersionPropagatedToAll
  unfold sentVersion at h
  cases hs : sentToNode.lookup key with
  | none => exact zero_le _
  | some sent =>
    dsimp only
    split_ifs with hnone hne
    · exact zero_le _
    · obtain ⟨node, -, hmin⟩ := Finset.mem_image.mp (Finset.min'_mem _ hne)
      have hle := h node
      rw [hs] at hle
      rw [← hmin]
      exact hle
    · exact zero_le _

section

variable (hI : Inv mergeDeltas nodes s)

include hI

/-- A cleanup drops only what counts as sent to every peer. -/
lemma Inv.cleanup : Inv mergeDeltas nodes { s with log := s.log.cleanupDeltaEntries } := by
  have hsentToNode : s.log.cleanupDeltaEntries.sentToNode = s.log.sentToNode := by
    unfold cleanupDeltaEntries
    split_ifs <;> rfl
  have hsentTo : ∀ node key, DeltaRun.sentTo { s with log := s.log.cleanupDeltaEntries } node key =
      s.sentTo node key := fun node key => by rw [DeltaRun.sentTo, hsentToNode]; rfl
  refine ⟨?_, fun key => ?_, fun key => ?_, fun node key => ?_, hI.sent⟩
  · refine Eq.trans ?_ hI.nodes_eq
    unfold cleanupDeltaEntries
    split_ifs <;> rfl
  · refine Eq.trans ?_ (hI.version key)
    unfold cleanupDeltaEntries
    split_ifs <;> rfl
  · obtain ⟨dropped, hentries, hle, hdropped⟩ := hI.entries key
    simp only [hsentTo]
    by_cases hempty : s.log.nodes.isEmpty = true
    · refine ⟨(s.recorded key).length, ?_, le_rfl, fun node hnode => ?_⟩
      · rw [drop_length, cleanupDeltaEntries, if_pos hempty]
        rfl
      · have hmem := mem_ordered.mpr hnode
        rw [← hI.nodes_eq, isEmpty_iff.mp hempty] at hmem
        exact absurd hmem not_mem_nil
    · have hsmallest := fun node (hnode : node ∈ nodes) =>
        smallest_le_sentVersion s.log.sentToNode key
          (hI.nodes_eq ▸ mem_ordered.mpr hnode)
      have hbound : smallestVersionPropagatedToAll key s.log.nodes
          s.log.sentToNode ≤ (s.recorded key).length :=
        smallest_le_of_forall fun node => hI.sentTo node key
      generalize hv : smallestVersionPropagatedToAll key s.log.nodes
          s.log.sentToNode = v at hsmallest hbound
      have hafter : s.log.cleanupDeltaEntries.entriesOf key = entriesAfter (s.log.entriesOf key) v := by
        rw [cleanupDeltaEntries, if_neg hempty]
        unfold entriesOf
        rw [lookup_tabulate]
        split_ifs with hkey
        · rw [Option.getD_some, ← hv]
        · rw [Finmap.mem_keys] at hkey
          rw [Finmap.lookup_eq_none.mpr hkey]
          rfl
      rcases le_total dropped v with hv | hv
      · refine ⟨v, ?_, hbound, hsmallest⟩
        have hsum : dropped + (v - dropped) = v := by omega
        rw [hafter, hentries, entriesAfter_of_ge hv, drop_drop, hsum]
      · exact ⟨dropped, by rw [hafter, hentries, entriesAfter_of_le hv], hle, hdropped⟩
  · rw [hsentTo]
    exact hI.sentTo node key

lemma Inv.collect_spec :
    (∀ node key, sentVersion (s.log.collectPropagations mergeDeltas).1.sentToNode
      key node = if node ∈ s.log.selectedNodes.1 then (s.recorded key).length
        else s.sentTo node key) ∧
    ∀ node key e, e ∈ (((s.log.collectPropagations mergeDeltas).2.lookup node).bind
    (·.lookup key)).toList ↔
      node ∈ s.log.selectedNodes.1 ∧
        s.log.offered mergeDeltas s.log.sentToNode key node = some e := by
  have hnodup : s.log.nodes.Nodup := hI.nodes_eq ▸ nodup_ordered _
  have hselected : ∀ node ∈ s.log.selectedNodes.1, node ∈ nodes := fun node h =>
    mem_ordered.mp (hI.nodes_eq ▸ mem_nodes_of_mem_selectedNodes h)
  obtain ⟨hsent, hoffer, -⟩ :=
    collectPropagations_spec mergeDeltas hI.sorted hnodup
  refine ⟨fun node key => ?_, fun node key e => ?_⟩
  · rw [hsent]
    split_ifs with h
    · exact hI.selectedVersion (hselected node h) key
    · rfl
  · rw [hoffer, Option.mem_toList]
    split_ifs with h
    all_goals simp [h]

lemma Inv.collect : Inv mergeDeltas nodes (s.collected mergeDeltas) := by
  have hnodup : s.log.nodes.Nodup := hI.nodes_eq ▸ nodup_ordered _
  obtain ⟨hsentTo, hsent⟩ := hI.collect_spec
  obtain ⟨-, -, hnodes, hversions, hentries, -⟩ :=
    collectPropagations_spec mergeDeltas hI.sorted hnodup
  refine ⟨hnodes.trans hI.nodes_eq, fun key => ?_, fun key => ?_, fun node key => ?_,
    fun node key e he => ?_⟩
  · exact (congrArg (fun versions => versions.count key) hversions).trans (hI.version key)
  · obtain ⟨dropped, heq, hle, hdropped⟩ := hI.entries key
    refine ⟨dropped, ?_, hle, fun node hnode => ?_⟩
    · exact (congrArg (fun entries => (entries.lookup key).getD []) hentries).trans heq
    · rw [DeltaRun.sentTo, collected, hsentTo]
      split_ifs
      · exact hle
      · exact hdropped node hnode
  · rw [DeltaRun.sentTo, collected, hsentTo]
    split_ifs
    · exact le_rfl
    · exact hI.sentTo node key
  · rcases mem_append.mp he with he | he
    · exact hI.sent node key e he
    · obtain ⟨hnode, hoffer⟩ := (hsent node key e).mp he
      have hmem : node ∈ nodes := mem_ordered.mp
        (hI.nodes_eq ▸ mem_nodes_of_mem_selectedNodes hnode)
      obtain ⟨hfrom, hto, hlt, hdelta⟩ := hI.offered hmem key hoffer
      refine ⟨by omega, hto.le, ?_⟩
      have hrange : (s.recorded key).range e.fromVersion e.toVersion =
          (s.recorded key).drop (s.sentTo node key) := by
        rw [DeltaLog.range, hfrom, hto, take_length, Nat.add_sub_cancel]
      exact (congrArg (mergeDeltaGroup mergeDeltas) hrange).trans hdelta

lemma Inv.step {i : DeltaLogLabel K Δ} {t : DeltaRun K R Δ}
    (hstep : s.step mergeDeltas i = some t) : Inv mergeDeltas nodes t := by
  cases i with
  | record key delta =>
    cases hstep
    exact hI.record key delta
  | collect =>
    cases hstep
    exact hI.collect
  | cleanup =>
    cases hstep
    exact hI.cleanup

end

lemma Inv.of_reach {ok : DeltaRun K R Δ → DeltaLogLabel K Δ → Prop}
    (h : (machine mergeDeltas nodes divisor maxDeltaVersions).Reach ok s) : Inv mergeDeltas nodes s :=
  h.invariant (fun _ h => h ▸ Inv.start divisor maxDeltaVersions) fun _ _ _ hI _ hstep => hI.step hstep

/-! ## Tilings -/

/-- The ranges are consecutive, the first one starts after `v` and the last one ends at `w`. -/
def Tiles : ℕ → List (DeltaPropagationEntry Δ) → ℕ → Prop
  | v, [], w => v = w
  | v, e :: es, w => e.fromVersion = v + 1 ∧ e.fromVersion ≤ e.toVersion ∧ Tiles e.toVersion es w

omit [LinearOrder K] [LinearOrder R] in
lemma Tiles.append {v w : ℕ} {es : List (DeltaPropagationEntry Δ)} (h : Tiles v es w)
    (hfrom : e.fromVersion = w + 1) (hle : e.fromVersion ≤ e.toVersion) :
    Tiles v (es ++ [e]) e.toVersion := by
  induction es generalizing v with
  | nil =>
    have hv : v = w := h
    exact ⟨by rw [hv, hfrom], hle, rfl⟩
  | cons e' es ih => exact ⟨h.1, h.2.1, ih h.2.2⟩

lemma tiles_collect (hI : Inv mergeDeltas nodes s) (hnode : node ∈ nodes)
    (hpayload : HasPayload node key s .collect)
    (h : Tiles 0 (s.sent node key) (s.sentTo node key)) :
    Tiles 0 ((s.collected mergeDeltas).sent node key) ((s.collected mergeDeltas).sentTo node key) := by
  obtain ⟨hsentTo, hsent⟩ := hI.collect_spec
  unfold DeltaRun.sentTo collected
  dsimp only
  rw [hsentTo]
  cases hout : ((s.log.collectPropagations mergeDeltas).2.lookup node).bind (·.lookup key) with
  | some e =>
    have hmem := (hsent node key e).mp (by rw [hout]; exact mem_singleton_self e)
    obtain ⟨hfrom, hto, hlt, -⟩ := hI.offered hnode key hmem.2
    rw [if_pos hmem.1, ← hto]
    exact h.append hfrom (by omega)
  | none =>
    rw [Option.toList_none, append_nil]
    split_ifs with hselected
    · -- a selected peer that gets nothing has everything
      have hall : (s.recorded key).drop (s.sentTo node key) = [] := by
        by_contra hne
        obtain ⟨hlen, hsome⟩ := hpayload hselected
        obtain ⟨d, ds, hds⟩ := exists_cons_of_ne_nil hne
        obtain ⟨d', hlast⟩ := getLast?_numberFrom (s.sentTo node key) hne
        have hgroup := isSome_mergeDeltaGroup mergeDeltas hne fun d hd => by
          rw [hI.pending hnode key] at hsome
          rw [← map_snd_numberFrom (s.sentTo node key) ((s.recorded key).drop _)] at hd
          obtain ⟨e, he, rfl⟩ := mem_map.mp hd
          exact hsome e he
        obtain ⟨delta, hdelta⟩ := Option.isSome_iff_exists.mp hgroup
        have hoffer : s.log.offered mergeDeltas s.log.sentToNode key node = some
            ⟨delta, s.sentTo node key + 1, s.sentTo node key + ((s.recorded key).drop
              (s.sentTo node key)).length⟩ := by
          rw [hI.pending hnode key, length_numberFrom] at hlen
          rw [offered, hI.pending hnode key, hlast, hds, head?_numberFrom]
          rw [mergeEntryGroup, ← hds, length_numberFrom, map_snd_numberFrom, if_neg (by omega), hdelta]
          rfl
        have hmem := (hsent node key _).mpr ⟨hselected, hoffer⟩
        rw [hout] at hmem
        exact absurd hmem not_mem_nil
      have hle := hI.sentTo node key
      have hge := drop_eq_nil_iff.mp hall
      rwa [le_antisymm hge hle]
    · exact h

lemma tiles_of_reach (hnode : node ∈ nodes)
    (h : (machine mergeDeltas nodes divisor maxDeltaVersions).Reach (HasPayload node key) s) :
    Tiles 0 (s.sent node key) (s.sentTo node key) := by
  induction h with
  | init h => rw [h]; rfl
  | @step s t i hs hok hstep ih =>
    cases i with
    | record key' delta =>
      cases hstep
      exact ih
    | collect =>
      cases hstep
      exact tiles_collect (Inv.of_reach hs) hnode hok ih
    | cleanup =>
      cases hstep
      have hsentToNode : s.log.cleanupDeltaEntries.sentToNode = s.log.sentToNode := by
        unfold cleanupDeltaEntries
        split_ifs <;> rfl
      rw [DeltaRun.sentTo, hsentToNode]
      exact ih

end DeltaRun

/-! ## Receiving a tiling -/

/-- A range with the markers beside it, the time of its receipt and who marks them as seen. -/
structure DeltaMessage (R Δ : Type*) where
  entry : DeltaPropagationEntry Δ
  pruning : PruningTable R
  now : ℕ
  seenBy : Option R

def DeltaReceiveStatus.isMissing : DeltaReceiveStatus → Bool
  | missing _ _ _ _ => true
  | _ => false

def DeltaReceiveStatus.isApplied : DeltaReceiveStatus → Bool
  | applied _ _ _ => true
  | _ => false

section Receive

variable {K R D Δ : Type*} [LinearOrder K] [LinearOrder R] [DecidableEq D] [DeltaReplicatedData D Δ]
  [RemovedNodePruning D R]

/-- The reports about the ranges of one source and key, received in their order. -/
def receiveRanges (source : R) (key : K) : DeltaReceiveTracker R K →
    ReplicatorState K (DataEnvelope D R) → List (DeltaMessage R Δ) → List DeltaReceiveStatus
  | _, _, [] => []
  | t, state, m :: ms =>
    let result := t.applyDeltaPruned state source key m.entry.fromVersion m.entry.toVersion
      m.entry.delta m.pruning m.now m.seenBy
    result.2.2 :: receiveRanges source key result.1 result.2.1 ms

/-- A receiver that stands where a tiling begins applies every range of it, and one that is further
misses none. -/
lemma receiveRanges_tiles {source : R} {messages : List (DeltaMessage R Δ)} {v w : ℕ}
    (h : DeltaRun.Tiles v (messages.map (·.entry)) w) {t : DeltaReceiveTracker R K}
    {state : ReplicatorState K (DataEnvelope D R)} (hv : v ≤ t.currentVersion source key) :
    ∀ status ∈ receiveRanges source key t state messages, status.isMissing = false ∧
      (t.currentVersion source key = v → status.isApplied = true) := by
  induction messages generalizing v t state with
  | nil => exact fun status hs => absurd hs not_mem_nil
  | cons m ms ih =>
    obtain ⟨hfrom, hle, hrest⟩ := h
    dsimp only at hfrom hle
    intro status hs
    rw [receiveRanges] at hs
    by_cases hnew : t.currentVersion source key < m.entry.toVersion
    · obtain ⟨changed, hstatus, htracker⟩ := t.applyDeltaPruned_of_next state source key m.entry.delta
        m.pruning m.now m.seenBy (by omega) hle hnew (by omega)
      rcases mem_cons.mp hs with hs | hs
      · rw [hs, hstatus]
        exact ⟨rfl, fun _ => rfl⟩
      · rw [htracker] at hs
        have hat := DeltaReceiveTracker.currentVersion_insert t source source key key m.entry.toVersion
        rw [if_pos ⟨rfl, rfl⟩] at hat
        obtain ⟨hmissing, happlied⟩ := ih hrest hat.ge status hs
        exact ⟨hmissing, fun _ => happlied hat⟩
    · have hhandled : t.applyDeltaPruned state source key m.entry.fromVersion m.entry.toVersion
          m.entry.delta m.pruning m.now m.seenBy =
          (t, state, .alreadyHandled (t.currentVersion source key) m.entry.toVersion) := by
        unfold DeltaReceiveTracker.applyDeltaPruned
        rw [if_neg (by omega)]
        rw [if_pos (by omega)]
      rw [hhandled] at hs
      refine ⟨?_, fun hat => by omega⟩
      rcases mem_cons.mp hs with hs | hs
      · rw [hs]
        rfl
      · exact (ih hrest (not_lt.mp hnew) status hs).1

namespace DeltaRun

/-- **The ranges of the delta log.**  In every run payloads are the in-order merges of what was recorded
in their ranges, and what counts as unsent for some peer is retained.  Where every range selected for
a peer has a payload, the ranges sent to it are consecutive from version one, and a receiver that gets
them in order applies each of them. -/
theorem delta_ranges_tile (nodes : Finset R) (divisor maxDeltaVersions : ℕ) :
    (∀ s, (machine (K := K) (mergeDeltas D) nodes divisor maxDeltaVersions).Reachable s →
      ∀ node key, (∀ e ∈ s.sent node key,
        mergeDeltaGroup (mergeDeltas D) ((s.recorded key).range e.fromVersion e.toVersion) =
          some e.delta) ∧
      (node ∈ nodes → ∀ version d, s.sentTo node key < version →
        (s.recorded key)[version - 1]? = some d → (version, d) ∈ s.log.entriesOf key)) ∧
    ∀ node ∈ nodes, ∀ (key : K) (s), (machine (mergeDeltas D) nodes divisor maxDeltaVersions).Reach
      (HasPayload node key) s → Tiles 0 (s.sent node key) (s.sentTo node key) ∧
      ∀ (source : R) (t : DeltaReceiveTracker R K) (state : ReplicatorState K (DataEnvelope D R))
        messages, t.currentVersion source key = 0 →
        messages.map (·.entry) = s.sent node key →
        ∀ status ∈ receiveRanges source key t state messages, status.isApplied = true := by
  refine ⟨fun s hs node key => ⟨fun e he => ?_, fun hnode version d hlt hd => ?_⟩,
    fun node hnode key s hs => ⟨tiles_of_reach hnode hs, ?_⟩⟩
  · exact ((Inv.of_reach hs).sent node key e he).2.2
  · obtain ⟨dropped, hentries, -, hdropped⟩ := (Inv.of_reach hs).entries key
    have hle := hdropped node hnode
    have hindex : dropped + (version - dropped - 1) = version - 1 := by omega
    rw [hentries, mem_numberFrom, getElem?_drop, hindex]
    exact ⟨by omega, hd⟩
  · intro source t state messages h0 hmessages
    exact fun status hs' =>
      (receiveRanges_tiles (hmessages ▸ tiles_of_reach hnode hs) h0.ge status hs').2 h0

end DeltaRun

end Receive

/-! ## An update without a delta -/

namespace PayloadFree

abbrev Data := GCounter ℕ

def logMachine := DeltaRun.machine (K := Unit) (R := ℕ) (mergeDeltas Data) {1} 5 100

def increment : Data := ⟨Finmap.singleton 0 1, none⟩

def bare (e : DeltaPropagationEntry Data) : DeltaMessage ℕ Data := ⟨e, .new, 0, none⟩

/-- What a fresh receiver reports about the ranges sent to it. -/
def reports (s : DeltaRun Unit ℕ Data) : List DeltaReceiveStatus :=
  receiveRanges (D := Data) 0 () .new .new ((s.sent 1 ()).map bare)

/-- An update without a delta is followed by one with a delta, and each is collected. -/
theorem range_missing : ∃ s, logMachine.Reachable s ∧ s.recorded () = [none, some increment] ∧
    s.sent 1 () = [⟨increment, 2, 2⟩] ∧ ¬ DeltaRun.Tiles 0 (s.sent 1 ()) (s.sentTo 1 ()) ∧
    reports s = [.missing 0 1 2 2] := by
  obtain ⟨s, hs, hrecorded, hsent, hreports⟩ := Machine.Reach.exists_of_exec (M := logMachine)
    (c := fun _ _ => True) (P := fun s => s.recorded () = [none, some increment] ∧ s.sent 1 () =
    [⟨increment, 2, 2⟩] ∧
      reports s = [.missing 0 1 2 2])
    [.record () none, .collect, .record () (some increment), .collect] rfl (by decide +kernel)
  refine ⟨s, hs, hrecorded, hsent, ?_, hreports⟩
  rw [hsent]
  rintro ⟨hfrom, -⟩
  exact absurd hfrom (by decide)

/-- Two updates with deltas, the first one cleaned up before the second. -/
theorem ranges_applied : ∃ s, logMachine.Reach (DeltaRun.HasPayload 1 ()) s ∧
    s.sent 1 () = [⟨increment, 1, 1⟩, ⟨increment, 2, 2⟩] ∧
    DeltaRun.Tiles 0 (s.sent 1 ()) (s.sentTo 1 ()) ∧
    ∀ status ∈ reports s, status.isApplied = true := by
  obtain ⟨s, hs, h⟩ := Machine.Reach.exists_of_exec (M := logMachine)
    (c := DeltaRun.HasPayload 1 ())
    (P := fun s => s.sent 1 () = [⟨increment, 1, 1⟩, ⟨increment, 2, 2⟩])
    [.record () (some increment), .collect, .cleanup, .record () (some increment), .collect] rfl
    (by decide +kernel)
  have hmessages : ((s.sent 1 ()).map bare).map (·.entry) = s.sent 1 () := by
    rw [map_map]
    exact map_id _
  obtain ⟨htiles, hreceive⟩ := (DeltaRun.delta_ranges_tile {1} 5 100).2 1
    (Finset.mem_singleton_self 1) () s hs
  exact ⟨s, hs, h, htiles, hreceive 0 .new .new _ rfl hmessages⟩

end PayloadFree

end Kairo.DistributedData
