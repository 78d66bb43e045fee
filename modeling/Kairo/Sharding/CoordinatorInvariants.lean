import Kairo.Sharding.CoordinatorRuntime

/-!
# Invariants of the coordinator

The regions with their shards and the index of shard homes are two views of one assignment.  Every
operation of the runtime keeps them in agreement, allocates a shard only to an active region and only
when no rebalance of it is in progress, and with remembered entities forgets no shard.
-/

namespace Kairo.Sharding

open Kairo.Lib ShardAllocations Option FinMap List Finset CoordinatorState

/-! ## Allocations -/

namespace ShardAllocations

variable {a b : ShardAllocations} {region : RegionId} {shard : ShardId}

/-- The shards of the regions and the homes of the shards agree. -/
structure Agree (a : ShardAllocations) : Prop where
  home : ∀ region shard, a.shardHomes.lookup shard = some region ↔
    ∃ shards, a.regions.lookup region = some shards ∧ shard ∈ shards
  nodup : ∀ region shards, a.regions.lookup region = some shards → shards.Nodup

lemma Agree.insertRegion (h : Agree a) (hb : a.insertRegion region = some b) :
    Agree b ∧ b.shardHomes = a.shardHomes := by
  unfold ShardAllocations.insertRegion at hb
  split at hb
  · cases hb
  · rename_i hnew
    cases hb
    have hnone : a.regions.lookup region = none := Finmap.lookup_eq_none.mpr hnew
    refine ⟨⟨fun r s => ?_, fun r shards hr => ?_⟩, rfl⟩
    · have := h.home r s
      simp only [lookup_insert]
      grind
    · have := h.nodup r shards
      rw [lookup_insert] at hr
      grind

lemma lookup_eraseAll (shards : List ShardId) (homes : FinMap ShardId RegionId) (s : ShardId) :
    (shards.foldl (fun homes shard => homes.erase shard) homes).lookup s =
      if s ∈ shards then none else homes.lookup s := by
  induction shards generalizing homes with
  | nil => simp
  | cons t shards ih =>
    rw [foldl_cons, ih, lookup_erase]
    grind

lemma Agree.removeRegion {shards : List ShardId} (h : Agree a)
    (hb : a.removeRegion region = some (b, shards)) :
    Agree b ∧ (∀ s, b.shardHomes.lookup s = if s ∈ shards then none else a.shardHomes.lookup s) ∧
      a.regions.lookup region = some shards := by
  obtain ⟨found, hl, hb⟩ := map_eq_some_iff.mp hb
  cases hb
  refine ⟨⟨fun r s => ?_, fun r found hr => ?_⟩, lookup_eraseAll _ _, hl⟩
  · have := h.home r s
    have := h.home region s
    simp only [lookup_eraseAll, lookup_erase]
    grind
  · have := h.nodup r found
    rw [lookup_erase] at hr
    grind

lemma Agree.deallocateShard (h : Agree a) (hb : a.deallocateShard shard = some b) :
    Agree b ∧ b.shardHomes = a.shardHomes.erase shard := by
  obtain ⟨region, hhome, rfl⟩ := map_eq_some_iff.mp hb
  obtain ⟨shards, hl, hmem⟩ := (h.home region shard).mp hhome
  have hnodup := h.nodup region shards hl
  refine ⟨⟨fun r s => ?_, fun r found hr => ?_⟩, rfl⟩
  · have := h.home r s
    simp only [lookup_insert, lookup_erase, hl, getD_some]
    grind [List.Nodup.mem_erase_iff]
  · have := h.nodup r found
    rw [lookup_insert, hl] at hr
    grind [List.Nodup.erase]

lemma Agree.allocateShard (h : Agree a) (hnone : a.shardHomes.lookup shard = none)
    (hb : a.allocateShard region shard = .ok b) :
    Agree b ∧ b.shardHomes = a.shardHomes.insert shard region := by
  have hde : a.deallocateShard shard = none := by
    rw [ShardAllocations.deallocateShard, hnone]
    rfl
  unfold ShardAllocations.allocateShard at hb
  rw [hde, hnone] at hb
  split at hb
  · cases hb
  · rename_i hin
    cases hb
    obtain ⟨shards, hl⟩ := isSome_iff_exists.mp (mem_iff_isSome.mp (not_not.mp hin))
    have hfresh : shard ∉ shards := by
      intro hs
      cases hnone.symm.trans ((h.home region shard).mpr ⟨shards, hl, hs⟩)
    refine ⟨⟨fun r s => ?_, fun r found hr => ?_⟩, rfl⟩
    · have := h.home r s
      simp only [getD_none, lookup_insert, hl, getD_some]
      grind
    · have := h.nodup r found
      have := h.nodup region shards hl
      simp only [getD_none, lookup_insert, hl, getD_some] at hr
      grind

end ShardAllocations

/-! ## State -/

namespace CoordinatorState

def allShards (c : CoordinatorState) : Finset ShardId :=
  c.allocations.regions.keys.biUnion (fun region =>
    ((c.allocations.regions.lookup region).getD []).toFinset) ∪ c.unallocatedShards

def withRememberEntities (c : CoordinatorState) (enabled : Bool) : CoordinatorState :=
  { c with
    rememberEntities := enabled
    unallocatedShards := if enabled then c.unallocatedShards else ∅ }

/-- The states that a coordinator can start with. -/
inductive Built : CoordinatorState → Prop
  | new (rememberEntities : Bool) : Built (new rememberEntities)
  | apply {c c' : CoordinatorState} (event : CoordinatorEvent) :
    Built c → c.apply event = .ok c' → Built c'
  | mergeRememberedShards {c : CoordinatorState} (shards : Finset ShardId) :
    Built c → Built (c.mergeRememberedShards shards)
  | withRememberEntities {c : CoordinatorState} (enabled : Bool) :
    Built c → Built (c.withRememberEntities enabled)

structure Consistent (c : CoordinatorState) : Prop where
  agree : c.allocations.Agree
  disjoint : ∀ shard ∈ c.unallocatedShards, c.shardHome shard = none
  remembered : c.rememberEntities = false → c.unallocatedShards = ∅

variable {c c' : CoordinatorState} {shard : ShardId} {event : CoordinatorEvent}

lemma Consistent.mem_allShards (h : Consistent c) :
    shard ∈ c.allShards ↔ (c.shardHome shard).isSome ∨ shard ∈ c.unallocatedShards := by
  have := fun region => h.agree.home region shard
  simp only [allShards, mem_union, mem_biUnion, Finmap.mem_keys, List.mem_toFinset,
    mem_iff_isSome, shardHome, regionForShard, isSome_iff_exists, this]
  refine or_congr_left (exists_congr fun region => ⟨?_, ?_⟩)
  · rintro ⟨⟨shards, hl⟩, hs⟩
    rw [hl] at hs
    exact ⟨shards, hl, hs⟩
  · rintro ⟨shards, hl, hs⟩
    rw [hl]
    exact ⟨⟨shards, rfl⟩, hs⟩

/-- What an event does to a consistent state: homes change only by an allocation of a shard that had
none, and with remembered entities every shard that loses its home is kept as unallocated. -/
structure Moves (c c' : CoordinatorState) (event : CoordinatorEvent) : Prop where
  consistent : Consistent c'
  flag : c'.rememberEntities = c.rememberEntities
  home : ∀ shard region, c'.shardHome shard = some region →
    c.shardHome shard = some region ∨ event = .shardHomeAllocated shard region
  known : c.rememberEntities = true → c.allShards ⊆ c'.allShards

lemma Consistent.moves (h : Consistent c) (hagree : c'.allocations.Agree)
    (hflag : c'.rememberEntities = c.rememberEntities)
    (hpoint : ∀ s, (s ∈ c'.unallocatedShards → c'.shardHome s = none ∧ c.rememberEntities = true) ∧
      (∀ region, c'.shardHome s = some region →
        c.shardHome s = some region ∨ event = .shardHomeAllocated s region) ∧
      (c.rememberEntities = true → (c.shardHome s).isSome ∨ s ∈ c.unallocatedShards →
        (c'.shardHome s).isSome ∨ s ∈ c'.unallocatedShards)) : Moves c c' event := by
  have hc : Consistent c' := by
    refine ⟨hagree, fun s hs => ((hpoint s).1 hs).1, fun hr => eq_empty_of_forall_notMem ?_⟩
    intro s hs
    cases (((hpoint s).1 hs).2.symm.trans hflag.symm).trans hr
  refine ⟨hc, hflag, fun s => (hpoint s).2.1, fun hr s hs => hc.mem_allShards.mpr ?_⟩
  exact (hpoint s).2.2 hr (h.mem_allShards.mp hs)

lemma Consistent.apply (h : Consistent c) (ha : c.apply event = .ok c') : Moves c c' event := by
  have hd := h.disjoint
  have hr := h.remembered
  unfold shardHome regionForShard at hd
  cases event with
  | shardRegionRegistered region =>
    simp only [apply] at ha
    split at ha
    · rename_i allocations hi
      cases ha
      obtain ⟨hagree, hhomes⟩ := h.agree.insertRegion hi
      refine h.moves hagree rfl fun s => ?_
      simp only [shardHome, regionForShard, hhomes]
      grind
    · cases ha
  | shardRegionTerminated region =>
    simp only [apply] at ha
    split at ha
    · rename_i allocations shards hi
      cases ha
      obtain ⟨hagree, hhomes, hl⟩ := h.agree.removeRegion hi
      refine h.moves hagree rfl fun s => ?_
      simp only [shardHome, regionForShard, hhomes]
      grind [List.mem_toFinset]
    · cases ha
  | shardHomeAllocated shard region =>
    simp only [apply] at ha
    split at ha
    · cases ha
    · rename_i hnone
      cases hal : c.allocations.allocateShard region shard with
      | error e => rw [hal] at ha; cases ha
      | ok allocations =>
        rw [hal] at ha
        cases ha
        have hnone : c.allocations.shardHomes.lookup shard = none :=
          not_isSome_iff_eq_none.mp hnone
        obtain ⟨hagree, hhomes⟩ := h.agree.allocateShard hnone hal
        refine h.moves hagree rfl fun s => ?_
        simp only [shardHome, regionForShard, hhomes, lookup_insert]
        grind
  | shardHomeDeallocated shard =>
    simp only [apply] at ha
    split at ha
    · rename_i allocations hde
      cases ha
      obtain ⟨hagree, hhomes⟩ := h.agree.deallocateShard hde
      refine h.moves hagree rfl fun s => ?_
      simp only [shardHome, regionForShard, hhomes, lookup_erase]
      grind
    · cases ha
  | shardRegionProxyRegistered proxy | shardRegionProxyTerminated proxy =>
    simp only [apply] at ha
    split at ha <;> cases ha
    exact ⟨⟨h.agree, h.disjoint, hr⟩, rfl, fun _ _ => .inl, fun _ _ => id⟩
  | shardCoordinatorInitialized =>
    cases ha
    exact ⟨h, rfl, fun _ _ => .inl, fun _ _ => id⟩

lemma Consistent.mergeRememberedShards (h : Consistent c) (shards : Finset ShardId) :
    Moves c (c.mergeRememberedShards shards) .shardCoordinatorInitialized := by
  have hd := h.disjoint
  have hr := h.remembered
  unfold CoordinatorState.mergeRememberedShards
  split
  · exact ⟨h, rfl, fun _ _ => .inl, fun _ _ => id⟩
  · refine h.moves h.agree rfl fun s => ?_
    simp only [shardHome, mem_union] at *
    grind

lemma Built.consistent (h : Built c) : Consistent c := by
  induction h with
  | new remember => exact ⟨⟨by simp [CoordinatorState.new], by simp [CoordinatorState.new]⟩,
      by simp [CoordinatorState.new], fun _ => rfl⟩
  | apply event _ ha ih => exact (ih.apply ha).consistent
  | mergeRememberedShards shards _ ih => exact (ih.mergeRememberedShards shards).consistent
  | @withRememberEntities c enabled _ ih =>
    refine ⟨ih.agree, fun s hs => ih.disjoint s ?_, fun he => ?_⟩
    · simp only [CoordinatorState.withRememberEntities] at hs
      grind
    · simp only [CoordinatorState.withRememberEntities] at he ⊢
      grind

end CoordinatorState

/-! ## Operations of the runtime -/

/-- The operations; a strategy is given with each call that asks one.  `setMarks` stands for the setters
of the flags and of the marks of regions. -/
inductive CoordinatorOp
  | applyEvent (event : CoordinatorEvent)
  | mergeRememberedShards (shards : Finset ShardId)
  | requestShardHome (strategy : ShardAllocationStrategy) (requester : RegionId) (shard : ShardId)
  | allocateRememberedShardHomes (strategy : ShardAllocationStrategy) (requester : RegionId)
  | planRebalance (strategy : ShardAllocationStrategy)
  | planRegionShutdown (region : RegionId)
  | completeRebalance (shard : ShardId) (ok : Bool)
  | beginRebalance (shard : ShardId)
  | clearRebalance (shard : ShardId)
  | setMarks (allRegionsRegistered preparingForShutdown : Bool)
    (gracefulShutdown terminating unavailable : Finset RegionId)

/-- The operation ends the rebalance of the shard. -/
def CoordinatorOp.completes (shard : ShardId) : CoordinatorOp → Prop
  | .completeRebalance s _ | .clearRebalance s => s = shard
  | _ => False

/-- The event is applied as it is; the caller answers for the marks of the region. -/
def CoordinatorOp.allocates (shard : ShardId) (region : RegionId) (op : CoordinatorOp) : Prop :=
  op = .applyEvent (.shardHomeAllocated shard region)

/-- What an operation that fails with `e` leaves behind: homes of remembered shards are requested one by
one, and what the requests before the failing one did is kept. -/
def CoordinatorOp.Leaves (rt rt' : CoordinatorRuntime) (e : ShardingError) : CoordinatorOp → Prop
  | .allocateRememberedShardHomes strategy requester => ∃ earlier shard later plans,
    rt.rememberedShardHomeRequests = earlier ++ shard :: later ∧
      rt.requestShardHomes strategy requester earlier = (rt', .ok plans) ∧
      (rt'.requestShardHome strategy requester shard).2 = .error e
  | _ => rt' = rt

namespace CoordinatorRuntime

def run (rt : CoordinatorRuntime) : CoordinatorOp → CoordinatorRuntime × Except ShardingError Unit
  | .applyEvent event => rt.applyEvent event
  | .mergeRememberedShards shards =>
    ({ rt with state := rt.state.mergeRememberedShards shards }, .ok ())
  | .requestShardHome strategy requester shard =>
    (rt.requestShardHome strategy requester shard).map id (·.map fun _ => ())
  | .allocateRememberedShardHomes strategy requester =>
    (rt.allocateRememberedShardHomes strategy requester).map id (·.map fun _ => ())
  | .planRebalance strategy => (rt.planRebalance strategy).map id (·.map fun _ => ())
  | .planRegionShutdown region => ((rt.planRegionShutdown region).1, .ok ())
  | .completeRebalance shard ok => (rt.completeRebalance shard ok).map id (·.map fun _ => ())
  | .beginRebalance shard => (rt.beginRebalance shard, .ok ())
  | .clearRebalance shard => ((rt.clearRebalance shard).1, .ok ())
  | .setMarks registered preparing graceful terminating unavailable =>
    (⟨rt.state, registered, graceful, terminating, unavailable, rt.rebalanceInProgress, preparing⟩,
    .ok ())

def runAll (rt : CoordinatorRuntime) (ops : List CoordinatorOp) : CoordinatorRuntime :=
  ops.foldl (fun rt op => (rt.run op).1) rt

variable {rt rt' : CoordinatorRuntime} {op : CoordinatorOp} {α : Type} {region : RegionId}

/-- What an operation may do. -/
structure Change (rt : CoordinatorRuntime) (op : CoordinatorOp) (rt' : CoordinatorRuntime) : Prop where
  consistent : rt'.state.Consistent
  /-- A shard gets a new home only where the region is active and the shard is not under rebalance,
  unless the event that says so is applied. -/
  home : ∀ shard region, rt'.state.shardHome shard = some region →
    rt.state.shardHome shard = some region ∨ (region ∉ rt.gracefulShutdownRegions ∧
      region ∉ rt.terminatingRegions ∧ shard ∉ rt.rebalanceInProgress) ∨ op.allocates shard region
  known : rt.state.rememberEntities = true → rt.state.allShards ⊆ rt'.state.allShards
  flag : rt'.state.rememberEntities = rt.state.rememberEntities
  rebalancing : ∀ shard ∈ rt.rebalanceInProgress, ¬ op.completes shard → shard ∈ rt'.rebalanceInProgress

structure Step (rt : CoordinatorRuntime) (op : CoordinatorOp)
    (x : CoordinatorRuntime × Except ShardingError α) : Prop extends Change rt op x.1 where
  failing : ∀ e, x.2 = .error e → op.Leaves rt x.1 e

/-- A step that does nothing when it fails. -/
structure WholeStep (rt : CoordinatorRuntime) (op : CoordinatorOp)
    (x : CoordinatorRuntime × Except ShardingError α) : Prop extends Change rt op x.1 where
  failing : ∀ e, x.2 = .error e → x.1 = rt

lemma Change.trans {rt'' : CoordinatorRuntime} (h : Change rt op rt') (h' : Change rt' op rt'')
    (hg : rt'.gracefulShutdownRegions = rt.gracefulShutdownRegions)
    (ht : rt'.terminatingRegions = rt.terminatingRegions) (hop : ∀ shard, ¬ op.completes shard) :
    Change rt op rt'' := by
  refine ⟨h'.consistent, fun s r hs => ?_, fun hr => (h.known hr).trans (h'.known (h.flag.trans hr)),
    h'.flag.trans h.flag, fun s hs _ => h'.rebalancing s (h.rebalancing s hs (hop s)) (hop s)⟩
  obtain hs | hs | hs := h'.home s r hs
  · exact h.home s r hs
  · rw [hg, ht] at hs
    exact .inr (.inl ⟨hs.1, hs.2.1, fun hin => hs.2.2 (h.rebalancing s hin (hop s))⟩)
  · exact .inr (.inr hs)

lemma change_marks (h : rt.state.Consistent) (hs : rt'.state = rt.state)
    (hr : ∀ shard ∈ rt.rebalanceInProgress, ¬ op.completes shard → shard ∈ rt'.rebalanceInProgress) :
    Change rt op rt' := by
  refine ⟨hs ▸ h, fun _ _ => ?_, fun _ => by rw [hs], by rw [hs], hr⟩
  rw [hs]
  exact .inl

lemma change_same (h : rt.state.Consistent) : Change rt op rt := change_marks h rfl fun _ hs _ => hs

lemma step_same (h : rt.state.Consistent) (r : Except ShardingError α) : WholeStep rt op (rt, r) :=
  ⟨change_same h, fun _ _ => rfl⟩

lemma step_applyEvent (h : rt.state.Consistent) (op : CoordinatorOp) (event : CoordinatorEvent)
    (hok : ∀ shard region, event = .shardHomeAllocated shard region →
      (region ∉ rt.gracefulShutdownRegions ∧ region ∉ rt.terminatingRegions ∧
        shard ∉ rt.rebalanceInProgress) ∨ op.allocates shard region) :
    WholeStep rt op (rt.applyEvent event) := by
  unfold applyEvent
  split
  · rename_i state ha
    obtain ⟨hc, hf, hh, hk⟩ := h.apply ha
    exact ⟨⟨hc, fun s r hs => (hh s r hs).imp_right (hok s r), hk, hf, fun _ hs _ => hs⟩, nofun⟩
  · exact step_same h _

lemma mem_regions_activeAllocations (h : region ∈ rt.activeAllocations.regions) :
    region ∉ rt.gracefulShutdownRegions ∧ region ∉ rt.terminatingRegions := by
  have hfold : ∀ (gone : List RegionId) (a : ShardAllocations),
      region ∈ (gone.foldl (fun active r => ((active.removeRegion r).map (·.1)).getD active)
        a).regions →
        region ∉ gone ∧ region ∈ a.regions := by
    intro gone
    induction gone with
    | nil => simp
    | cons r gone ih =>
      intro a hin
      obtain ⟨hgone, hin⟩ := ih _ hin
      simp only [removeRegion] at hin
      cases hl : a.regions.lookup r with
      | none => grind [mem_iff_isSome]
      | some shards => grind [Finmap.mem_erase]
  simpa using (hfold _ _ h).1

lemma beginRebalance_facts (rt : CoordinatorRuntime) (s : ShardId) : (rt.beginRebalance s).state =
    rt.state ∧
    ∀ t ∈ rt.rebalanceInProgress, t ∈ (rt.beginRebalance s).rebalanceInProgress := by
  unfold beginRebalance
  split
  · exact ⟨rfl, fun _ => id⟩
  · exact ⟨rfl, fun t ht => Finmap.mem_insert.mpr (.inr ht)⟩

lemma planShards_facts (rt : CoordinatorRuntime) (home : ShardId → Option RegionId)
    (shards : List ShardId) :
    (rt.planShards home shards).1.state = rt.state ∧
      ∀ s ∈ rt.rebalanceInProgress, s ∈ (rt.planShards home shards).1.rebalanceInProgress := by
  let Kept (x : CoordinatorRuntime × List ShardRebalancePlan) : Prop :=
    x.1.state = rt.state ∧ ∀ s ∈ rt.rebalanceInProgress, s ∈ x.1.rebalanceInProgress
  refine foldlRecOn shards _ (motive := Kept) ⟨rfl, fun _ => id⟩ ?_
  rintro ⟨rt', plans⟩ ih s -
  dsimp only
  split
  · exact ih
  · split
    · obtain ⟨hs, hr⟩ := beginRebalance_facts rt' s
      exact ⟨hs.trans ih.1, fun t ht => hr t (ih.2 t ht)⟩
    · exact ih

lemma step_requestShardHome (h : rt.state.Consistent) (op : CoordinatorOp)
    (strategy : ShardAllocationStrategy) (requester : RegionId) (shard : ShardId) :
    WholeStep rt op (rt.requestShardHome strategy requester shard) := by
  unfold requestShardHome
  split
  · exact ⟨change_marks h rfl fun t ht _ => Finmap.mem_insert.mpr (.inr ht), nofun⟩
  · rename_i hfree
    have hfree : shard ∉ rt.rebalanceInProgress := Finmap.lookup_eq_none.mp hfree
    split
    · exact step_same h _
    · split
      · split <;> exact step_same h _
      · dsimp only
        split
        · exact step_same h _
        · split
          · exact step_same h _
          · rename_i region _
            split
            · exact step_same h _
            · rename_i hin
              obtain ⟨hg, ht⟩ := mem_regions_activeAllocations (not_not.mp hin)
              have hstep := step_applyEvent h op (.shardHomeAllocated shard region)
                (by rintro _ _ ⟨⟩; exact .inl ⟨hg, ht, hfree⟩)
              split <;> rename_i heq <;> rw [heq] at hstep
              · exact { hstep with failing := nofun }
              · exact { hstep with failing := fun _ _ => hstep.failing _ rfl }

lemma requestShardHome_marks (rt : CoordinatorRuntime) (strategy : ShardAllocationStrategy)
    (requester : RegionId) (shard : ShardId) :
    (rt.requestShardHome strategy requester shard).1.gracefulShutdownRegions =
        rt.gracefulShutdownRegions ∧
      (rt.requestShardHome strategy requester shard).1.terminatingRegions = rt.terminatingRegions := by
  unfold requestShardHome applyEvent
  grind

lemma change_requestShardHomes (h : rt.state.Consistent) (hop : ∀ shard, ¬ op.completes shard)
    (strategy : ShardAllocationStrategy) (requester : RegionId) (shards : List ShardId) :
    Change rt op (rt.requestShardHomes strategy requester shards).1 ∧
      ∀ e, (rt.requestShardHomes strategy requester shards).2 = .error e →
        ∃ earlier shard later plans, shards = earlier ++ shard :: later ∧
          rt.requestShardHomes strategy requester earlier =
            ((rt.requestShardHomes strategy requester shards).1, .ok plans) ∧
          ((rt.requestShardHomes strategy requester shards).1.requestShardHome strategy requester
            shard).2 = .error e := by
  induction shards generalizing rt with
  | nil => exact ⟨change_same h, nofun⟩
  | cons shard shards ih =>
    have hstep := step_requestShardHome h op strategy requester shard
    obtain ⟨hg, ht⟩ := requestShardHome_marks rt strategy requester shard
    rw [requestShardHomes]
    rcases hx : rt.requestShardHome strategy requester shard with ⟨rt', e | plan⟩ <;>
      rw [hx] at hstep hg ht
    · -- the failing request has done nothing
      obtain rfl : rt' = rt := hstep.failing e rfl
      refine ⟨hstep.toChange, fun e' he => ⟨[], shard, shards, [], rfl, rfl, ?_⟩⟩
      rw [hx, Except.error.inj he]
    · obtain ⟨hchange, herror⟩ := ih hstep.consistent
      have hall := hstep.toChange.trans hchange hg ht hop
      rcases hy : rt'.requestShardHomes strategy requester shards with ⟨rt'', e | plans⟩ <;>
        simp only [hy] at hall herror ⊢
      · refine ⟨hall, fun e' he => ?_⟩
        obtain ⟨earlier, next, later, plans, rfl, hearlier, hnext⟩ := herror e' he
        refine ⟨shard :: earlier, next, later, plan :: plans, rfl, ?_, hnext⟩
        simp only [requestShardHomes, hx, hearlier]
      · exact ⟨hall, nofun⟩

lemma step_planRebalance (h : rt.state.Consistent) (strategy : ShardAllocationStrategy) :
    WholeStep rt op (rt.planRebalance strategy) := by
  unfold planRebalance
  iterate 3
    split
    · exact step_same h _
  split
  · exact step_same h _
  · rename_i selected _
    obtain ⟨hs, hr⟩ := rt.planShards_facts rt.state.shardHome (ordered selected)
    split
    · exact step_same h _
    · dsimp only
      split <;> exact ⟨change_marks h hs fun t ht _ => hr t ht, nofun⟩

lemma step_planRegionShutdown (h : rt.state.Consistent) (region : RegionId) :
    WholeStep rt op ((rt.planRegionShutdown region).1, .ok ()) := by
  unfold planRegionShutdown
  split
  · exact step_same h _
  · split
    · exact step_same h _
    · rename_i shards _
      obtain ⟨hs, hr⟩ := planShards_facts { rt with
        gracefulShutdownRegions := insert region rt.gracefulShutdownRegions } (fun _ => some region)
          shards
      dsimp only
      split <;> exact ⟨change_marks h hs fun t ht _ => hr t ht, nofun⟩

lemma mem_clearRebalance {s t : ShardId} (h : t ∈ rt.rebalanceInProgress) (hne : ¬ s = t) :
    t ∈ (rt.clearRebalance s).1.rebalanceInProgress :=
  Finmap.mem_erase.mpr ⟨fun he => hne he.symm, h⟩

lemma step_completeRebalance (h : rt.state.Consistent) (shard : ShardId) (ok : Bool) :
    WholeStep rt (.completeRebalance shard ok) (rt.completeRebalance shard ok) := by
  unfold completeRebalance
  split
  · exact step_same h _
  · split
    · split <;> exact ⟨change_marks h rfl fun t ht hne => mem_clearRebalance ht hne, nofun⟩
    · split
      · have hstep := step_applyEvent h (.completeRebalance shard ok)
          (.shardHomeDeallocated shard) (by rintro _ _ ⟨⟩)
        split <;> rename_i heq <;> rw [heq] at hstep
        · exact { hstep with
            rebalancing := fun t ht hne => mem_clearRebalance (hstep.rebalancing t ht hne) hne
            failing := nofun }
        · exact { hstep with failing := fun _ _ => hstep.failing _ rfl }
      · exact ⟨change_marks h rfl fun t ht hne => mem_clearRebalance ht hne, nofun⟩

lemma WholeStep.forget {x : CoordinatorRuntime × Except ShardingError α} (h : WholeStep rt op x) :
    WholeStep rt op (x.map id (·.map fun _ => ())) := by
  obtain ⟨rt', _ | _⟩ := x
  · exact ⟨h.toChange, fun _ _ => h.failing _ rfl⟩
  · exact ⟨h.toChange, nofun⟩

/-- **One operation.** -/
theorem step_run (h : rt.state.Consistent) (op : CoordinatorOp) : Step rt op (rt.run op) := by
  cases op with
  | applyEvent event => exact { step_applyEvent h _ _ fun s r he => .inr (he ▸ rfl) with }
  | allocateRememberedShardHomes strategy requester =>
    have hop : ∀ shard, ¬ (CoordinatorOp.allocateRememberedShardHomes strategy requester).completes shard :=
      fun _ => id
    obtain ⟨hchange, hfail⟩ :=
      change_requestShardHomes h hop strategy requester rt.rememberedShardHomeRequests
    simp only [run, allocateRememberedShardHomes]
    rcases hx : rt.requestShardHomes strategy requester rt.rememberedShardHomeRequests with
      ⟨rt', e | plans⟩ <;> rw [hx] at hchange hfail
    · exact ⟨hchange, fun _ he => hfail _ (congrArg _ (Except.error.inj he))⟩
    · exact ⟨hchange, nofun⟩
  | requestShardHome strategy requester shard =>
    exact { (step_requestShardHome h _ strategy requester shard).forget with }
  | planRebalance strategy => exact { (step_planRebalance h strategy).forget with }
  | completeRebalance shard ok => exact { (step_completeRebalance h shard ok).forget with }
  | planRegionShutdown region => exact { step_planRegionShutdown h region with }
  | mergeRememberedShards shards =>
    obtain ⟨hc, hf, hh, hk⟩ := h.mergeRememberedShards shards
    refine ⟨⟨hc, fun s r hs => .inl ?_, hk, hf, fun _ hs _ => hs⟩, nofun⟩
    exact (hh s r hs).resolve_right nofun
  | beginRebalance shard =>
    obtain ⟨hs, hr⟩ := beginRebalance_facts rt shard
    exact ⟨change_marks h hs fun s hin _ => hr s hin, nofun⟩
  | clearRebalance shard => exact ⟨change_marks h rfl fun s hs hne => mem_clearRebalance hs hne, nofun⟩
  | setMarks => exact ⟨change_marks h rfl fun _ hs _ => hs, nofun⟩

lemma consistent_runAll (h : rt.state.Consistent) (ops : List CoordinatorOp) :
    (rt.runAll ops).state.Consistent := by
  induction ops generalizing rt with
  | nil => exact h
  | cons op ops ih => exact ih (step_run h op).consistent

/-- Until its rebalance ends, a shard keeps its home or loses it. -/
lemma home_of_rebalancing (h : rt.state.Consistent) {shard : ShardId}
    (hs : shard ∈ rt.rebalanceInProgress) {ops : List CoordinatorOp}
    (hops : ∀ op ∈ ops, ¬ op.completes shard ∧ ¬ op.allocates shard region)
    (hr : (rt.runAll ops).state.shardHome shard = some region) :
    rt.state.shardHome shard = some region := by
  induction ops generalizing rt with
  | nil => exact hr
  | cons op ops ih =>
    have hstep := step_run h op
    have hin := hstep.rebalancing shard hs (hops op mem_cons_self).1
    have hnext := ih hstep.consistent hin (fun o ho => hops o (mem_cons_of_mem _ ho)) hr
    refine (hstep.home shard region hnext).resolve_right fun hc => ?_
    exact hc.elim (fun hc => hc.2.2 hs) (hops op mem_cons_self).2

/-- What holds of a coordinator at any time, and of what it can do next. -/
structure Sound (rt : CoordinatorRuntime) : Prop where
  agree : rt.state.allocations.Agree
  oneOwner : ∀ shard r₁ r₂ s₁ s₂, rt.state.allocations.regions.lookup r₁ = some s₁ → shard ∈ s₁ →
    rt.state.allocations.regions.lookup r₂ = some s₂ → shard ∈ s₂ → r₁ = r₂
  disjoint : ∀ shard ∈ rt.state.unallocatedShards, rt.state.shardHome shard = none
  step : ∀ op, Step rt op (rt.run op)
  rebalancing : ∀ shard ∈ rt.rebalanceInProgress, ∀ region, ∀ ops : List CoordinatorOp,
    (∀ op ∈ ops, ¬ op.completes shard ∧ ¬ op.allocates shard region) →
      (rt.runAll ops).state.shardHome shard = some region → rt.state.shardHome shard = some region

/-- **The coordinator is sound** in every run from a state that a coordinator can start with. -/
theorem sound_runAll {state : CoordinatorState} (hs : state.Built) (ops : List CoordinatorOp) :
    ((new state).runAll ops).Sound := by
  have h : ((new state).runAll ops).state.Consistent := consistent_runAll hs.consistent ops
  refine ⟨h.agree, fun shard r₁ r₂ s₁ s₂ h₁ hs₁ h₂ hs₂ => ?_, h.disjoint, step_run h,
    fun shard hin region ops hops hr => home_of_rebalancing h hin hops hr⟩
  have e₁ := (h.agree.home r₁ shard).mpr ⟨s₁, h₁, hs₁⟩
  have e₂ := (h.agree.home r₂ shard).mpr ⟨s₂, h₂, hs₂⟩
  exact some.inj (e₁.symm.trans e₂)

/-- Shards go to the region `p`, but `x` to none, and the shard `c` is to move. -/
def toRegionP : ShardAllocationStrategy where
  allocateShard _ shard _ := if shard = "x" then .error .noShardRegions else .ok "p"
  rebalance _ _ := .ok {"c"}

/-- Two regions, a remembered shard with its home, and two shards under rebalance; the home of one
shuts down. -/
def busy : CoordinatorRuntime := (new (.new true)).runAll
  [.applyEvent (.shardRegionRegistered "p"), .applyEvent (.shardRegionRegistered "q"),
    .mergeRememberedShards {"a"}, .allocateRememberedShardHomes toRegionP "coordinator",
    .requestShardHome toRegionP "q" "c", .planRebalance toRegionP, .beginRebalance "d",
    .planRegionShutdown "p"]

theorem sound_busy : busy.Sound ∧ busy.state.shardHome "a" = some "p" ∧
    busy.state.shardHome "c" = some "p" ∧ "c" ∈ busy.rebalanceInProgress :=
  ⟨sound_runAll (.new true) _, by decide +kernel⟩

/-- Two remembered shards, the second of which gets no home. -/
def remembering : CoordinatorRuntime := (new (.new true)).runAll
  [.applyEvent (.shardRegionRegistered "p"), .mergeRememberedShards {"a", "x"}]

lemma requests_remembering : remembering.rememberedShardHomeRequests = ["a", "x"] := by
  have h : remembering.state.unallocatedShards = {"a", "x"} := by decide +kernel
  rw [rememberedShardHomeRequests, if_pos (by rfl), h, ordered]
  exact (sort_insert _ (by decide +kernel) (by decide)).trans (congrArg _ (sort_singleton _ _))

def failed : CoordinatorRuntime × Except ShardingError Unit :=
  remembering.run (.allocateRememberedShardHomes toRegionP "coordinator")

/-- A failing operation gives the shard `a` a home, and an applied event gives the shard `d` under
rebalance a home in a region that shuts down. -/
theorem allocated_otherwise :
    (failed.2 = .error .noShardRegions ∧ remembering.state.shardHome "a" = none ∧
      failed.1.state.shardHome "a" = some "p") ∧
    "p" ∈ busy.gracefulShutdownRegions ∧ "d" ∈ busy.rebalanceInProgress ∧
      (busy.run (.applyEvent (.shardHomeAllocated "d" "p"))).1.state.shardHome "d" = some "p" := by
  refine ⟨?_, by decide +kernel⟩
  simp only [failed, run, allocateRememberedShardHomes, requests_remembering]
  decide +kernel

end CoordinatorRuntime

end Kairo.Sharding
