import Kairo.DistributedData.Replicator
import Mathlib.Data.Nat.ModEq

/-!
# The delta propagation log

Every local update of a key gets the next version of the key and is kept, with its delta or without
one, until it has been selected for every peer.  A collection goes round the peers; for each peer it
merges what is unsent into one range per key, with a cache of merged ranges that the peers share.  A
range with an update that has no delta, or with too many updates, counts as sent without a payload.
-/

namespace Kairo.DistributedData

open Kairo.Lib DeltaReplicatedData List FinMap Nat

/-- A merged delta and the versions from the first to the last one that it represents. -/
structure DeltaPropagationEntry (Δ : Type*) where
  delta : Δ
  fromVersion : ℕ
  toVersion : ℕ
  deriving DecidableEq

structure DeltaPropagationLog (K R Δ : Type*) where
  nodes : List R
  versions : FinMap K ℕ
  /-- Versions with their deltas, oldest first: a new version is the largest one. -/
  entries : FinMap K (List (ℕ × Option Δ))
  sentToNode : FinMap K (FinMap R ℕ)
  nodeRoundRobinCounter : ℕ
  propagationCount : ℕ
  gossipIntervalDivisor : ℕ
  maxDeltaVersions : ℕ

/-! ## Selecting peers -/

def minNodeSliceSize : ℕ := 2

def maxNodeSliceSize : ℕ := 10

def nodeSliceSize (allNodesSize divisor : ℕ) : ℕ :=
  min (max (allNodesSize / max divisor 1 + 1) minNodeSliceSize) (min allNodesSize maxNodeSliceSize)

/-! ## Ranges -/

section

variable {Δ : Type*}

def entriesAfter (entries : List (ℕ × Option Δ)) (version : ℕ) : List (ℕ × Option Δ) :=
  entries.filter fun e => version < e.1

/-- The merged payload of a range that is not too long. -/
def mergeEntryGroup (mergeDeltas : Δ → Δ → Δ) (entries : List (ℕ × Option Δ))
    (maxDeltaVersions : ℕ) : Option Δ :=
  if maxDeltaVersions ≤ entries.length then none
  else mergeDeltaGroup mergeDeltas (entries.map (·.2))

end

namespace DeltaPropagationLog

variable {K R Δ : Type*} [LinearOrder K] [DecidableEq R] (mergeDeltas : Δ → Δ → Δ)

section Basic

variable (log : DeltaPropagationLog K R Δ)

def currentVersion (key : K) : ℕ := log.versions.count key

def entriesOf (key : K) : List (ℕ × Option Δ) := (log.entries.lookup key).getD []

/-- An update without a delta takes a version too. -/
def recordDelta (key : K) (delta : Option Δ) : DeltaPropagationLog K R Δ :=
  let version := log.currentVersion key + 1
  { log with
    versions := log.versions.insert key version
    entries := log.entries.insert key (log.entriesOf key ++ [(version, delta)]) }

/-- The peers of the next collection: all of them, or a slice from where the last one ended. -/
def selectedNodes : List R × ℕ :=
  let sliceSize := nodeSliceSize log.nodes.length log.gossipIntervalDivisor
  if log.nodes.length ≤ sliceSize then (log.nodes, log.nodeRoundRobinCounter)
  else
    let start := log.nodeRoundRobinCounter % log.nodes.length
    ((List.range sliceSize).filterMap fun offset =>
        log.nodes[(start + offset) % log.nodes.length]?,
      log.nodeRoundRobinCounter + sliceSize)

end Basic

variable {log : DeltaPropagationLog K R Δ} {key : K} {node : R}
  {sentToNode sentToNode' : FinMap K (FinMap R ℕ)}

/-- The version up to which the updates of the key were selected for the node. -/
def sentVersion (sentToNode : FinMap K (FinMap R ℕ)) (key : K) (node : R) : ℕ :=
  ((sentToNode.lookup key).bind (·.lookup node)).getD 0

def setSentVersion (sentToNode : FinMap K (FinMap R ℕ)) (key : K) (node : R) (version : ℕ) :
    FinMap K (FinMap R ℕ) :=
  sentToNode.insert key (((sentToNode.lookup key).getD ∅).insert node version)

/-- Progress within a collection: the sent versions and the merged ranges so far. -/
structure Progress (K R Δ : Type*) where
  sentToNode : FinMap K (FinMap R ℕ)
  cache : FinMap (K × ℕ × ℕ) (Option Δ)

def collectKey (log : DeltaPropagationLog K R Δ) (node : R)
    (acc : Progress K R Δ × FinMap K (DeltaPropagationEntry Δ)) (key : K) :
    Progress K R Δ × FinMap K (DeltaPropagationEntry Δ) :=
  let unsent := entriesAfter (log.entriesOf key) (sentVersion acc.1.sentToNode key node)
  match unsent.head?, unsent.getLast? with
  | some (fromVersion, _), some (toVersion, _) =>
    let (merged, cache) := match acc.1.cache.lookup (key, fromVersion, toVersion) with
      | some merged => (merged, acc.1.cache)
      | none =>
        let merged := mergeEntryGroup mergeDeltas unsent log.maxDeltaVersions
        (merged, acc.1.cache.insert (key, fromVersion, toVersion) merged)
    (⟨setSentVersion acc.1.sentToNode key node toVersion, cache⟩,
      match merged with
      | some delta => acc.2.insert key ⟨delta, fromVersion, toVersion⟩
      | none => acc.2)
  | _, _ => acc

/-- All keys for one node; a node without a payload gets no message. -/
def collectNode (log : DeltaPropagationLog K R Δ)
    (acc : Progress K R Δ × FinMap R (FinMap K (DeltaPropagationEntry Δ))) (node : R) :
    Progress K R Δ × FinMap R (FinMap K (DeltaPropagationEntry Δ)) :=
  let (progress, entriesForNode) :=
    (ordered log.entries.keys).foldl (log.collectKey mergeDeltas node) (acc.1, ∅)
  (progress, if entriesForNode.keys = ∅ then acc.2 else acc.2.insert node entriesForNode)

def collectPropagations (log : DeltaPropagationLog K R Δ) :
    DeltaPropagationLog K R Δ × FinMap R (FinMap K (DeltaPropagationEntry Δ)) :=
  let log := { log with propagationCount := log.propagationCount + 1 }
  if log.nodes.isEmpty then (log, ∅)
  else
    let (selected, counter) := log.selectedNodes
    let log := { log with nodeRoundRobinCounter := counter }
    let (progress, propagations) :=
      selected.foldl (log.collectNode mergeDeltas) (⟨log.sentToNode, ∅⟩, ∅)
    ({ log with sentToNode := progress.sentToNode }, propagations)

/-- The version that was selected for every node; zero when some node has none. -/
def smallestVersionPropagatedToAll (key : K) (nodes : List R) (sentToNode : FinMap K (FinMap R ℕ)) :
    ℕ :=
  match sentToNode.lookup key with
  | none => 0
  | some sent =>
    if sent.keys = ∅ ∨ ∃ node ∈ nodes, (sent.lookup node).isNone then 0
    else if h : (sent.keys.image sent.count).Nonempty then (sent.keys.image sent.count).min' h else 0

/-- Without peers nothing is retained. -/
def cleanupDeltaEntries (log : DeltaPropagationLog K R Δ) : DeltaPropagationLog K R Δ :=
  if log.nodes.isEmpty then { log with entries := ∅ }
  else { log with
    entries := FinMap.tabulate log.entries.keys fun key => some <| entriesAfter (log.entriesOf key)
      (smallestVersionPropagatedToAll key log.nodes log.sentToNode) }

/-- A log that targets the nodes in their order. -/
def new [LinearOrder R] (nodes : Finset R) (gossipIntervalDivisor maxDeltaVersions : ℕ) :
    DeltaPropagationLog K R Δ :=
  ⟨ordered nodes, ∅, ∅, ∅, 0, 0, max gossipIntervalDivisor 1, max maxDeltaVersions 1⟩

/-! ## One collection -/

/-- What is unsent of a key for a node. -/
def pending (log : DeltaPropagationLog K R Δ) (sentToNode : FinMap K (FinMap R ℕ)) (key : K)
    (node : R) : List (ℕ × Option Δ) :=
  entriesAfter (log.entriesOf key) (sentVersion sentToNode key node)

/-- The sent version after the unsent range was selected. -/
def selectedVersion (log : DeltaPropagationLog K R Δ) (sentToNode : FinMap K (FinMap R ℕ)) (key : K)
    (node : R) : ℕ :=
  match (log.pending sentToNode key node).getLast? with
  | some (toVersion, _) => toVersion
  | none => sentVersion sentToNode key node

/-- The range that is offered to the node, if it has a payload. -/
def offered (log : DeltaPropagationLog K R Δ) (sentToNode : FinMap K (FinMap R ℕ)) (key : K)
    (node : R) : Option (DeltaPropagationEntry Δ) :=
  match (log.pending sentToNode key node).head?, (log.pending sentToNode key node).getLast? with
  | some (fromVersion, _), some (toVersion, _) =>
    (mergeEntryGroup mergeDeltas (log.pending sentToNode key node) log.maxDeltaVersions).map
      (⟨·, fromVersion, toVersion⟩)
  | _, _ => none

/-- The retained versions of every key grow. -/
def Sorted (log : DeltaPropagationLog K R Δ) : Prop :=
  ∀ key, (log.entriesOf key).Pairwise fun e e' => e.1 < e'.1

/-- A cached range is the merge of what is retained from its first version on. -/
def CacheOk (log : DeltaPropagationLog K R Δ) (cache : FinMap (K × ℕ × ℕ) (Option Δ)) : Prop :=
  ∀ key fromVersion toVersion merged, cache.lookup (key, fromVersion, toVersion) = some merged →
    merged = mergeEntryGroup mergeDeltas ((log.entriesOf key).filter fun e => fromVersion ≤ e.1)
      log.maxDeltaVersions

lemma sentVersion_setSentVersion (sentToNode : FinMap K (FinMap R ℕ)) (key key' : K)
    (node node' : R) (version : ℕ) :
    sentVersion (setSentVersion sentToNode key node version) key' node' =
      if key' = key ∧ node' = node then version else sentVersion sentToNode key' node' := by
  unfold sentVersion setSentVersion
  rw [lookup_insert]
  by_cases hk : key' = key
  · subst hk
    rw [if_pos rfl, Option.bind_some, lookup_insert]
    by_cases hn : node' = node
    · rw [if_pos hn, if_pos ⟨rfl, hn⟩]
      rfl
    · rw [if_neg hn, if_neg (by simp [hn])]
      cases sentToNode.lookup key' <;> rfl
  · rw [if_neg hk, if_neg (by simp [hk])]

/-- Everything unsent is what is retained from its first version on. -/
lemma pending_eq_filter (hsorted : log.Sorted) {first : ℕ × Option Δ}
    (h : (log.pending sentToNode key node).head? = some first) :
    log.pending sentToNode key node = (log.entriesOf key).filter fun e => first.1 ≤ e.1 := by
  have hfirst := mem_of_mem_head? h
  have hlt : sentVersion sentToNode key node < first.1 := by
    simpa using (mem_filter.mp hfirst).2
  have hpair : (log.pending sentToNode key node).Pairwise fun e e' => e.1 < e'.1 :=
    (hsorted key).filter _
  refine filter_congr fun e he => ?_
  rw [decide_eq_decide]
  constructor
  · intro hsent
    have hmem : e ∈ log.pending sentToNode key node :=
      mem_filter.mpr ⟨he, by simpa using hsent⟩
    obtain ⟨rest, hrest⟩ := head?_eq_some_iff.mp h
    rw [hrest] at hmem hpair
    rcases mem_cons.mp hmem with rfl | hmem
    · exact le_rfl
    · exact ((pairwise_cons.mp hpair).1 e hmem).le
  · intro hle
    omega

variable {acc : Progress K R Δ × FinMap K (DeltaPropagationEntry Δ)}

lemma collectKey_of_nil (h : log.pending acc.1.sentToNode key node = []) :
    log.collectKey mergeDeltas node acc key = acc := by
  rw [pending] at h
  simp only [collectKey, h]
  rfl

/-- With a correct cache the range is the merge of what is unsent, taken from the cache or not. -/
lemma collectKey_of_range (hsorted : log.Sorted)
    (hcache : log.CacheOk mergeDeltas acc.1.cache) {first last : ℕ × Option Δ}
    (hfirst : (log.pending acc.1.sentToNode key node).head? = some first)
    (hlast : (log.pending acc.1.sentToNode key node).getLast? = some last) :
    ∃ cache, log.CacheOk mergeDeltas cache ∧ log.collectKey mergeDeltas node acc key =
      (⟨setSentVersion acc.1.sentToNode key node last.1, cache⟩,
        match mergeEntryGroup mergeDeltas (log.pending acc.1.sentToNode key node)
          log.maxDeltaVersions with
        | some delta => acc.2.insert key ⟨delta, first.1, last.1⟩
        | none => acc.2) := by
  have hfilter := pending_eq_filter hsorted hfirst
  rw [pending] at hfirst hlast
  cases hlookup : acc.1.cache.lookup (key, first.1, last.1) with
  | some merged =>
    have hmerged := hcache key first.1 last.1 merged hlookup
    rw [← hfilter] at hmerged
    refine ⟨acc.1.cache, hcache, ?_⟩
    simp only [collectKey, hfirst, hlast, hlookup, hmerged]
  | none =>
    refine ⟨acc.1.cache.insert (key, first.1, last.1) (mergeEntryGroup mergeDeltas
      (log.pending acc.1.sentToNode key node) log.maxDeltaVersions), ?_, ?_⟩
    · intro key' fromVersion toVersion merged h
      rw [lookup_insert] at h
      split_ifs at h with heq
      · obtain ⟨rfl, rfl, rfl⟩ := by simpa using heq
        rw [← Option.some.inj h, hfilter]
      · exact hcache key' fromVersion toVersion merged h
    · simp only [collectKey, hfirst, hlast, hlookup]
      rfl

section

variable (h : sentVersion sentToNode' key node = sentVersion sentToNode key node)

include h

lemma pending_congr : log.pending sentToNode' key node = log.pending sentToNode key node := by
  rw [pending, pending, h]

lemma selectedVersion_congr :
    log.selectedVersion sentToNode' key node = log.selectedVersion sentToNode key node := by
  rw [selectedVersion, selectedVersion, pending_congr h, h]

lemma offered_congr :
    log.offered mergeDeltas sentToNode' key node = log.offered mergeDeltas sentToNode key node := by
  rw [offered, offered, pending_congr h]

end

lemma selectedVersion_of_nil (h : log.pending sentToNode key node = []) :
    log.selectedVersion sentToNode key node = sentVersion sentToNode key node := by
  rw [selectedVersion, h]
  rfl

lemma offered_of_nil (h : log.pending sentToNode key node = []) :
    log.offered mergeDeltas sentToNode key node = none := by
  rw [offered, h]
  rfl

variable {X Y : K → R → Prop} {b c d : Progress K R Δ}
  {f g h : K → R → Option (DeltaPropagationEntry Δ)}

/-- What is unsent for the keys and nodes in `X` was selected and is offered; the rest is as before. -/
structure Collected (log : DeltaPropagationLog K R Δ) (X : K → R → Prop) (b c : Progress K R Δ)
    (f g : K → R → Option (DeltaPropagationEntry Δ)) : Prop where
  cache : log.CacheOk mergeDeltas c.cache
  selected : ∀ {key node}, X key node →
    sentVersion c.sentToNode key node = log.selectedVersion b.sentToNode key node
  sent : ∀ {key node}, ¬ X key node →
    sentVersion c.sentToNode key node = sentVersion b.sentToNode key node
  offered : ∀ {key node}, X key node → f key node = none →
    g key node = log.offered mergeDeltas b.sentToNode key node
  rest : ∀ {key node}, ¬ X key node → g key node = f key node

lemma Collected.trans (hX : log.Collected mergeDeltas X b c f g)
    (hY : log.Collected mergeDeltas Y c d g h) (hne : ∀ {key node}, X key node → ¬ Y key node) :
    log.Collected mergeDeltas (fun key node => X key node ∨ Y key node) b d f h where
  cache := hY.cache
  selected {key node} hxy := by
    by_cases hx : X key node
    · rw [hY.sent (hne hx), hX.selected hx]
    · rw [hY.selected (hxy.resolve_left hx), selectedVersion_congr (hX.sent hx)]
  sent hxy := by rw [hY.sent fun hy => hxy (.inr hy), hX.sent fun hx => hxy (.inl hx)]
  offered {key node} hxy hn := by
    by_cases hx : X key node
    · rw [hY.rest (hne hx), hX.offered hx hn]
    · rw [hY.offered (hxy.resolve_left hx) ((hX.rest hx).trans hn), offered_congr _ (hX.sent hx)]
  rest hxy := by rw [hY.rest fun hy => hxy (.inr hy), hX.rest fun hx => hxy (.inl hx)]

lemma collected_foldl {T I : Type*} (view : T → K → R → Option (DeltaPropagationEntry Δ))
    {round : Progress K R Δ × T → I → Progress K R Δ × T} {cell : I → K → R → Prop}
    (hround : ∀ acc i, log.CacheOk mergeDeltas acc.1.cache →
      log.Collected mergeDeltas (cell i) acc.1 (round acc i).1 (view acc.2) (view (round acc i).2))
    (hcell : ∀ {i j key node}, cell i key node → cell j key node → i = j) {is : List I}
    (hnodup : is.Nodup) (acc : Progress K R Δ × T) (hcache : log.CacheOk mergeDeltas acc.1.cache) :
    log.Collected mergeDeltas (fun key node => ∃ i ∈ is, cell i key node) acc.1 (is.foldl round acc).1
      (view acc.2) (view (is.foldl round acc).2) := by
  induction is generalizing acc with
  | nil => exact ⟨hcache, fun h => absurd h (by simp), fun _ => rfl, fun h => absurd h (by simp),
      fun _ => rfl⟩
  | cons i is ih =>
    obtain ⟨hi, hnodup⟩ := nodup_cons.mp hnodup
    have hfirst := hround acc i hcache
    have hall := hfirst.trans mergeDeltas (ih hnodup _ hfirst.cache) fun hx ⟨j, hj, hy⟩ =>
      hi (hcell hx hy ▸ hj)
    simpa only [foldl_cons, mem_cons, exists_eq_or_imp] using hall

lemma collectKey_spec (hsorted : log.Sorted) (node : R)
    (acc : Progress K R Δ × FinMap K (DeltaPropagationEntry Δ)) (key : K)
    (hcache : log.CacheOk mergeDeltas acc.1.cache) :
    log.Collected mergeDeltas (fun key' node' => key' = key ∧ node' = node) acc.1
      (log.collectKey mergeDeltas node acc key).1
      (fun key' node' => if node' = node then acc.2.lookup key' else none) fun key' node' =>
        if node' = node then (log.collectKey mergeDeltas node acc key).2.lookup key' else none := by
  cases hfirst : (log.pending acc.1.sentToNode key node).head? with
  | none =>
    have hnil := head?_eq_none_iff.mp hfirst
    rw [collectKey_of_nil mergeDeltas hnil]
    refine ⟨hcache, ?_, fun _ => rfl, ?_, fun _ => rfl⟩
    · rintro key node ⟨rfl, rfl⟩
      exact (selectedVersion_of_nil hnil).symm
    · rintro key node ⟨rfl, rfl⟩ hn
      exact hn.trans (offered_of_nil mergeDeltas hnil).symm
  | some first =>
    have hne : log.pending acc.1.sentToNode key node ≠ [] := by
      intro h0
      rw [h0] at hfirst
      cases hfirst
    have hlast := getLast?_eq_some_getLast hne
    obtain ⟨cache, hcache', heq⟩ := collectKey_of_range mergeDeltas hsorted hcache hfirst hlast
    rw [heq]
    refine ⟨hcache', ?_, fun hx => ?_, ?_, fun {key' node'} hx => ?_⟩
    · rintro key node ⟨rfl, rfl⟩
      rw [sentVersion_setSentVersion, if_pos ⟨rfl, rfl⟩, selectedVersion, hlast]
    · rw [sentVersion_setSentVersion, if_neg hx]
    · rintro key node ⟨rfl, rfl⟩ hn
      rw [if_pos rfl] at hn ⊢
      rw [offered, hfirst, hlast]
      dsimp only
      cases mergeEntryGroup mergeDeltas (log.pending acc.1.sentToNode key node)
          log.maxDeltaVersions with
      | none => exact hn
      | some delta => exact Finmap.lookup_insert _
    · dsimp only
      split_ifs with hn
      · cases mergeEntryGroup mergeDeltas (log.pending acc.1.sentToNode key node)
            log.maxDeltaVersions with
        | none => rfl
        | some delta => exact Finmap.lookup_insert_of_ne _ fun hk => hx ⟨hk, hn⟩
      · rfl

lemma pending_eq_nil_of_notMem
    (h : key ∉ log.entries.keys) (sentToNode : FinMap K (FinMap R ℕ)) (node : R) :
    log.pending sentToNode key node = [] := by
  rw [Finmap.mem_keys] at h
  rw [pending, entriesOf, Finmap.lookup_eq_none.mpr h]
  rfl

lemma collectNode_spec (hsorted : log.Sorted)
    (acc : Progress K R Δ × FinMap R (FinMap K (DeltaPropagationEntry Δ))) (node : R)
    (hcache : log.CacheOk mergeDeltas acc.1.cache) :
    log.Collected mergeDeltas (fun _ node' => node' = node) acc.1
      (log.collectNode mergeDeltas acc node).1
      (fun key' node' => (acc.2.lookup node').bind (·.lookup key')) fun key' node' =>
        ((log.collectNode mergeDeltas acc node).2.lookup node').bind (·.lookup key') := by
  have hall := collected_foldl mergeDeltas
    (fun (entries : FinMap K _) key' node' => if node' = node then entries.lookup key' else none)
    (collectKey_spec mergeDeltas hsorted node) (fun hx hy => hx.1.symm.trans hy.1)
    (nodup_ordered log.entries.keys) (acc.1, ∅) hcache
  have hmem : ∀ key, ¬ (∃ i ∈ ordered log.entries.keys, key = i ∧ node = node) →
      log.pending acc.1.sentToNode key node = [] := fun key hk =>
    pending_eq_nil_of_notMem (fun hm => hk ⟨key, mem_ordered.mpr hm, rfl, rfl⟩) _ _
  rw [collectNode]
  generalize (ordered log.entries.keys).foldl (log.collectKey mergeDeltas node) (acc.1, ∅) = out at *
  refine ⟨hall.cache, ?_, fun hx => hall.sent fun ⟨_, _, _, h⟩ => hx h, ?_, fun hx => ?_⟩
  · rintro key node rfl
    by_cases hk : ∃ i ∈ ordered log.entries.keys, key = i ∧ node = node
    · exact hall.selected hk
    · rw [selectedVersion_of_nil (hmem key hk)]
      exact hall.sent hk
  · rintro key node rfl hn
    have hout : out.2.lookup key = log.offered mergeDeltas acc.1.sentToNode key node := by
      by_cases hk : ∃ i ∈ ordered log.entries.keys, key = i ∧ node = node
      · simpa using hall.offered hk (by simp)
      · rw [offered_of_nil mergeDeltas (hmem key hk)]
        simpa using hall.rest hk
    rw [← hout]
    dsimp only
    split_ifs with hempty
    · have hnone := Finset.notMem_empty key
      rw [← hempty, Finmap.mem_keys] at hnone
      rw [hn, Finmap.lookup_eq_none.mpr hnone]
    · rw [Finmap.lookup_insert, Option.bind_some]
  · dsimp only
    split_ifs
    · rfl
    · rw [Finmap.lookup_insert_of_ne _ hx]

omit [LinearOrder K] [DecidableEq R] in
lemma nodup_selectedNodes (h : log.nodes.Nodup) : log.selectedNodes.1.Nodup := by
  unfold selectedNodes
  dsimp only
  split_ifs with hlen
  · exact h
  · have hslice : nodeSliceSize log.nodes.length log.gossipIntervalDivisor ≤ log.nodes.length :=
      (min_le_right _ _).trans (min_le_left _ _)
    refine pairwise_filterMap.mpr (List.Pairwise.imp_of_mem ?_ nodup_range)
    intro i j hi hj hne x hx y hy hxy
    rw [mem_range] at hi hj
    subst hxy
    obtain ⟨hli, hxi⟩ := List.getElem?_eq_some_iff.mp hx
    obtain ⟨hlj, hyj⟩ := List.getElem?_eq_some_iff.mp hy
    have hidx := (List.Nodup.getElem_inj_iff h).mp (hxi.trans hyj.symm)
    -- two offsets below the number of nodes with the same position are equal
    have hmod : i % log.nodes.length = j % log.nodes.length :=
      Nat.ModEq.add_left_cancel' _ hidx
    rw [mod_eq_of_lt (by omega), mod_eq_of_lt (by omega)] at hmod
    exact hne hmod

omit [LinearOrder K] [DecidableEq R] in
lemma mem_nodes_of_mem_selectedNodes (h : node ∈ log.selectedNodes.1) : node ∈ log.nodes := by
  unfold selectedNodes at h
  dsimp only at h
  split_ifs at h
  · exact h
  · obtain ⟨offset, -, hnode⟩ := mem_filterMap.mp h
    exact mem_of_getElem? hnode

/-- **One collection**: every selected peer is offered what is unsent for it, and the others nothing. -/
theorem collectPropagations_spec (hsorted : log.Sorted) (hnodup : log.nodes.Nodup) :
    (∀ key node, sentVersion (log.collectPropagations mergeDeltas).1.sentToNode key node =
      if node ∈ log.selectedNodes.1 then log.selectedVersion log.sentToNode key node
      else sentVersion log.sentToNode key node) ∧
    (∀ node key, ((log.collectPropagations mergeDeltas).2.lookup node).bind (·.lookup key) =
      if node ∈ log.selectedNodes.1 then log.offered mergeDeltas log.sentToNode key node else none) ∧
    (log.collectPropagations mergeDeltas).1.nodes = log.nodes ∧
    (log.collectPropagations mergeDeltas).1.versions = log.versions ∧
    (log.collectPropagations mergeDeltas).1.entries = log.entries ∧
    (log.collectPropagations mergeDeltas).1.maxDeltaVersions = log.maxDeltaVersions := by
  unfold collectPropagations
  dsimp only
  split_ifs with hempty
  · have hnone : ∀ node, node ∉ log.selectedNodes.1 := fun node h => by
      have hmem := mem_nodes_of_mem_selectedNodes h
      rw [isEmpty_iff.mp hempty] at hmem
      exact absurd hmem not_mem_nil
    refine ⟨fun key node => ?_, fun node key => ?_, rfl, rfl, rfl, rfl⟩
    · rw [if_neg (hnone node)]
    · rw [if_neg (hnone node)]
      rfl
  · have hall := collected_foldl mergeDeltas
      (fun (entries : FinMap R (FinMap K _)) key node => (entries.lookup node).bind (·.lookup key))
      (collectNode_spec mergeDeltas (show Sorted { log with
        propagationCount := log.propagationCount + 1
        nodeRoundRobinCounter := log.selectedNodes.2 } from hsorted))
      (fun hx hy => hx.symm.trans hy) (nodup_selectedNodes hnodup) (⟨log.sentToNode, ∅⟩, ∅)
      fun _ _ _ _ h => nomatch h
    refine ⟨fun key node => ?_, fun node key => ?_, rfl, rfl, rfl, rfl⟩
    · split_ifs with hn
      · exact hall.selected ⟨node, hn, rfl⟩
      · exact hall.sent fun ⟨_, hm, h⟩ => hn (h ▸ hm)
    · split_ifs with hn
      · exact hall.offered ⟨node, hn, rfl⟩ rfl
      · exact hall.rest fun ⟨_, hm, h⟩ => hn (h ▸ hm)

/-! ## Fair selection -/

abbrev sliceSize (log : DeltaPropagationLog K R Δ) : ℕ :=
  nodeSliceSize log.nodes.length log.gossipIntervalDivisor

/-- The peers of consecutive collections. -/
def selections (log : DeltaPropagationLog K R Δ) : ℕ → List (List R)
  | 0 => []
  | ticks + 1 => log.selectedNodes.1 :: selections (log.collectPropagations mergeDeltas).1 ticks

lemma selection_collect (log : DeltaPropagationLog K R Δ) :
    (log.collectPropagations mergeDeltas).1.nodes = log.nodes ∧
    (log.collectPropagations mergeDeltas).1.sliceSize = log.sliceSize ∧
    (log.collectPropagations mergeDeltas).1.nodeRoundRobinCounter = log.selectedNodes.2 := by
  unfold collectPropagations
  dsimp only
  split_ifs with hempty
  · rw [List.isEmpty_iff] at hempty
    exact ⟨rfl, rfl, by simp [selectedNodes, hempty]⟩
  · exact ⟨rfl, rfl, rfl⟩

/-- The node at a position that the collections reach is selected by one of them. -/
lemma exists_mem_selections {ticks t : ℕ} (ht : t < log.nodes.length)
    (hreach : t < ticks * log.sliceSize)
    (hnode : log.nodes[(log.nodeRoundRobinCounter + t) % log.nodes.length]? = some node) :
    ∃ selected ∈ log.selections mergeDeltas ticks, node ∈ selected := by
  -- by induction on the collections: the position is in the first slice, or the rest goes on after it
  induction ticks generalizing log t with
  | zero => omega
  | succ ticks ih =>
    obtain ⟨hn, hd, hc⟩ := log.selection_collect mergeDeltas
    by_cases hlen : log.nodes.length ≤ log.sliceSize
    · refine ⟨_, mem_cons_self, ?_⟩
      rw [selectedNodes, if_pos hlen]
      exact mem_of_getElem? hnode
    by_cases hslice : t < log.sliceSize
    · refine ⟨_, mem_cons_self, ?_⟩
      rw [selectedNodes, if_neg hlen]
      refine mem_filterMap.mpr ⟨t, mem_range.mpr hslice, ?_⟩
      rw [Nat.mod_add_mod, hnode]
    · rw [selectedNodes, if_neg hlen] at hc
      rw [Nat.succ_mul] at hreach
      obtain ⟨selected, hmem, hsel⟩ := @ih (log.collectPropagations mergeDeltas).1
        (t - log.sliceSize) (by rw [hn]; omega) (by rw [hd]; omega) (by
          rw [hn, hc]
          dsimp only
          rw [Nat.add_assoc, Nat.add_sub_cancel' (not_lt.mp hslice), hnode])
      exact ⟨selected, mem_cons_of_mem _ hmem, hsel⟩

/-- **Selection is fair**: from any position of the counter, as many collections as it takes slices to
fill the list select every node, and each selects distinct nodes. -/
theorem selections_fair (log : DeltaPropagationLog K R Δ) :
    (∀ node ∈ log.nodes, ∃ selected ∈
      log.selections mergeDeltas ((log.nodes.length + log.sliceSize - 1) / log.sliceSize),
        node ∈ selected) ∧
    (log.nodes.Nodup → ∀ ticks, ∀ selected ∈ log.selections mergeDeltas ticks, selected.Nodup) := by
  refine ⟨fun node hnode => ?_, fun hnodup ticks => ?_⟩
  · obtain ⟨i, hi, rfl⟩ := getElem_of_mem hnode
    set n := log.nodes.length
    set size := log.sliceSize with hsize
    have hpos : 0 < size := by
      rw [hsize, sliceSize, nodeSliceSize, minNodeSliceSize, maxNodeSliceSize]
      omega
    have hceil : n ≤ (n + size - 1) / size * size := by
      have h1 := div_add_mod (n + size - 1) size
      have h2 := mod_lt (n + size - 1) hpos
      rw [mul_comm] at h1
      omega
    have hmod := mod_lt log.nodeRoundRobinCounter (zero_lt_of_lt hi)
    have ht : (i + (n - log.nodeRoundRobinCounter % n)) % n < n :=
      mod_lt _ (zero_lt_of_lt hi)
    refine exists_mem_selections mergeDeltas ht (ht.trans_le hceil) ?_
    have hround : log.nodeRoundRobinCounter + (i + (n - log.nodeRoundRobinCounter % n)) =
        i + n * (log.nodeRoundRobinCounter / n + 1) := by
      have := div_add_mod log.nodeRoundRobinCounter n
      rw [mul_succ]
      omega
    rw [add_mod_mod, hround, add_mul_mod_self_left, mod_eq_of_lt hi]
    exact getElem?_eq_getElem hi
  · induction ticks generalizing log with
    | zero => exact fun _ h => absurd h not_mem_nil
    | succ ticks ih =>
      rintro selected (_ | ⟨_, h⟩)
      · exact nodup_selectedNodes hnodup
      · exact ih _ ((log.selection_collect mergeDeltas).1 ▸ hnodup) selected h

end DeltaPropagationLog

end Kairo.DistributedData
