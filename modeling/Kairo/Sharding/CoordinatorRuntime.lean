import Kairo.Sharding.HandoffWorker

/-!
# Decisions of the shard coordinator

`ShardAllocations` are the registered regions with their shards and the index of shard homes,
`CoordinatorState` is what the events of the coordinator change, and `CoordinatorRuntime` decides about
homes, rebalances and shutdowns of regions.
-/

namespace Kairo.Sharding

open Kairo.Lib

/-! ## Allocations -/

structure ShardAllocations where
  regions : FinMap RegionId (List ShardId)
  shardHomes : FinMap ShardId RegionId

namespace ShardAllocations

variable (a : ShardAllocations)

def insertRegion (region : RegionId) : Option ShardAllocations :=
  if region ∈ a.regions then none else some { a with regions := a.regions.insert region [] }

def removeRegion (region : RegionId) : Option (ShardAllocations × List ShardId) :=
  (a.regions.lookup region).map fun shards =>
    (⟨a.regions.erase region, shards.foldl (fun homes shard => homes.erase shard) a.shardHomes⟩,
      shards)

def deallocateShard (shard : ShardId) : Option ShardAllocations :=
  (a.shardHomes.lookup shard).map fun region =>
    ⟨a.regions.insert region (((a.regions.lookup region).getD []).erase shard),
      a.shardHomes.erase shard⟩

def allocateShard (region : RegionId) (shard : ShardId) : Except ShardingError ShardAllocations :=
  if region ∉ a.regions then .error (.unknownRegion region)
  else if a.shardHomes.lookup shard = some region then .ok a
  else
    let a := (a.deallocateShard shard).getD a
    .ok ⟨a.regions.insert region ((a.regions.lookup region).getD [] ++ [shard]),
      a.shardHomes.insert shard region⟩

def regionForShard (shard : ShardId) : Option RegionId := a.shardHomes.lookup shard

end ShardAllocations

structure ShardAllocationStrategy where
  allocateShard : RegionId → ShardId → ShardAllocations → Except ShardingError RegionId
  rebalance : ShardAllocations → Finset ShardId → Except ShardingError (Finset ShardId)

/-! ## State and events -/

inductive CoordinatorEvent
  | shardRegionRegistered (region : RegionId)
  | shardRegionProxyRegistered (proxy : RegionId)
  | shardRegionTerminated (region : RegionId)
  | shardRegionProxyTerminated (proxy : RegionId)
  | shardHomeAllocated (shard : ShardId) (region : RegionId)
  | shardHomeDeallocated (shard : ShardId)
  | shardCoordinatorInitialized
  deriving DecidableEq

structure CoordinatorState where
  allocations : ShardAllocations
  proxies : Finset RegionId
  unallocatedShards : Finset ShardId
  rememberEntities : Bool

namespace CoordinatorState

def new (rememberEntities : Bool) : CoordinatorState := ⟨⟨∅, ∅⟩, ∅, ∅, rememberEntities⟩

variable (c : CoordinatorState)

def shardHome (shard : ShardId) : Option RegionId := c.allocations.regionForShard shard

def mergeRememberedShards (shards : Finset ShardId) : CoordinatorState :=
  if ¬ c.rememberEntities then c
  else { c with unallocatedShards :=
      c.unallocatedShards ∪ shards.filter fun shard => c.shardHome shard = none }

def apply : CoordinatorEvent → Except ShardingError CoordinatorState
  | .shardRegionRegistered region =>
    match c.allocations.insertRegion region with
    | some allocations => .ok { c with allocations }
    | none => .error (.regionAlreadyRegistered region)
  | .shardRegionProxyRegistered proxy =>
    if proxy ∈ c.proxies then .error (.regionProxyAlreadyRegistered proxy)
    else .ok { c with proxies := insert proxy c.proxies }
  | .shardRegionTerminated region =>
    match c.allocations.removeRegion region with
    | some (allocations, shards) =>
      .ok { c with
        allocations
        unallocatedShards :=
          if c.rememberEntities then c.unallocatedShards ∪ shards.toFinset
          else c.unallocatedShards }
    | none => .error (.unknownRegion region)
  | .shardRegionProxyTerminated proxy =>
    if proxy ∈ c.proxies then .ok { c with proxies := c.proxies.erase proxy }
    else .error (.unknownRegionProxy proxy)
  | .shardHomeAllocated shard region =>
    if (c.shardHome shard).isSome then .error (.shardAlreadyAllocated shard)
    else do
      let allocations ← c.allocations.allocateShard region shard
      .ok { c with
        allocations
        unallocatedShards :=
          if c.rememberEntities then c.unallocatedShards.erase shard else c.unallocatedShards }
  | .shardHomeDeallocated shard =>
    match c.allocations.deallocateShard shard with
    | some allocations =>
      .ok { c with
        allocations
        unallocatedShards :=
          if c.rememberEntities then insert shard c.unallocatedShards else c.unallocatedShards }
    | none => .error (.unknownShard shard)
  | .shardCoordinatorInitialized => .ok c

end CoordinatorState

/-! ## Plans -/

inductive RebalanceSkipReason
  | preparingForShutdown
  | regionsUnavailable (regions : Finset RegionId)
  | noShardRegions
  | strategySelectedNoShards
  | selectedShardsMissingHomes
  deriving DecidableEq

inductive RebalancePlan
  | started (shards : List ShardRebalancePlan)
  | skipped (reason : RebalanceSkipReason)
  deriving DecidableEq

inductive RegionShutdownPlan
  | started (region : RegionId) (shards : List ShardRebalancePlan)
  | alreadyInProgress (region : RegionId)
  | unknownRegion (region : RegionId)
  | noShards (region : RegionId)
  deriving DecidableEq

inductive RebalanceCompletionPlan
  | deallocated (shard : ShardId) (pendingRequesters : List RegionId)
  | cleared (shard : ShardId) (pendingRequesters : List RegionId)
  | timedOut (shard : ShardId) (pendingRequesters : List RegionId)
  deriving DecidableEq

/-! ## The runtime -/

structure CoordinatorRuntime where
  state : CoordinatorState
  allRegionsRegistered : Bool
  gracefulShutdownRegions : Finset RegionId
  terminatingRegions : Finset RegionId
  unavailableRegions : Finset RegionId
  /-- The requesters that wait for the end of a rebalance. -/
  rebalanceInProgress : FinMap ShardId (Finset RegionId)
  preparingForShutdown : Bool

namespace CoordinatorRuntime

def new (state : CoordinatorState) : CoordinatorRuntime := ⟨state, true, ∅, ∅, ∅, ∅, false⟩

variable (rt : CoordinatorRuntime) (strategy : ShardAllocationStrategy)

def applyEvent (event : CoordinatorEvent) : CoordinatorRuntime × Except ShardingError Unit :=
  match rt.state.apply event with
  | .ok state => ({ rt with state }, .ok ())
  | .error e => (rt, .error e)

def activeAllocations : ShardAllocations :=
  (ordered (rt.gracefulShutdownRegions ∪ rt.terminatingRegions)).foldl
    (fun active region => ((active.removeRegion region).map (·.1)).getD active) rt.state.allocations

def rebalanceParticipants : Finset RegionId := rt.state.allocations.regions.keys ∪ rt.state.proxies

def beginRebalance (shard : ShardId) : CoordinatorRuntime :=
  if shard ∈ rt.rebalanceInProgress then rt
  else { rt with rebalanceInProgress := rt.rebalanceInProgress.insert shard ∅ }

def clearRebalance (shard : ShardId) : CoordinatorRuntime × List RegionId :=
  ({ rt with rebalanceInProgress := rt.rebalanceInProgress.erase shard },
    ordered ((rt.rebalanceInProgress.lookup shard).getD ∅))

def planShards (home : ShardId → Option RegionId) (shards : List ShardId) :
    CoordinatorRuntime × List ShardRebalancePlan :=
  let participants := rt.rebalanceParticipants
  shards.foldl (fun (rt, plans) shard =>
    if shard ∈ rt.rebalanceInProgress then (rt, plans)
    else match home shard with
      | some fromRegion => (rt.beginRebalance shard, plans ++ [⟨shard, fromRegion, participants⟩])
      | none => (rt, plans)) (rt, [])

def planRebalance : CoordinatorRuntime × Except ShardingError RebalancePlan :=
  if rt.preparingForShutdown then (rt, .ok (.skipped .preparingForShutdown))
  else if rt.unavailableRegions ≠ ∅ then
    (rt, .ok (.skipped (.regionsUnavailable rt.unavailableRegions)))
  else if rt.activeAllocations.regions = ∅ then (rt, .ok (.skipped .noShardRegions))
  else match strategy.rebalance rt.activeAllocations rt.rebalanceInProgress.keys with
    | .error e => (rt, .error e)
    | .ok selected =>
      if selected = ∅ then (rt, .ok (.skipped .strategySelectedNoShards))
      else
        let (rt', plans) := rt.planShards rt.state.shardHome (ordered selected)
        if plans = [] then (rt', .ok (.skipped .selectedShardsMissingHomes))
        else (rt', .ok (.started plans))

def planRegionShutdown (region : RegionId) : CoordinatorRuntime × RegionShutdownPlan :=
  if region ∈ rt.gracefulShutdownRegions then (rt, .alreadyInProgress region)
  else match rt.state.allocations.regions.lookup region with
    | none => (rt, .unknownRegion region)
    | some shards =>
      let rt := { rt with gracefulShutdownRegions := insert region rt.gracefulShutdownRegions }
      let (rt, plans) := rt.planShards (fun _ => some region) shards
      if plans = [] then (rt, .noShards region) else (rt, .started region plans)

def completeRebalance (shard : ShardId) (ok : Bool) :
    CoordinatorRuntime × Except ShardingError RebalanceCompletionPlan :=
  if shard ∉ rt.rebalanceInProgress then (rt, .ok (.cleared shard []))
  else if ¬ ok then
    let rt := match rt.state.shardHome shard with
      | some region => { rt with gracefulShutdownRegions := rt.gracefulShutdownRegions.erase region }
      | none => rt
    let (rt, pendingRequesters) := rt.clearRebalance shard
    (rt, .ok (.timedOut shard pendingRequesters))
  else if (rt.state.shardHome shard).isSome then
    match rt.applyEvent (.shardHomeDeallocated shard) with
    | (rt, .ok _) =>
      let (rt, pendingRequesters) := rt.clearRebalance shard
      (rt, .ok (.deallocated shard pendingRequesters))
    | (rt, .error e) => (rt, .error e)
  else
    let (rt, pendingRequesters) := rt.clearRebalance shard
    (rt, .ok (.cleared shard pendingRequesters))

def requestShardHome (requester : RegionId) (shard : ShardId) :
    CoordinatorRuntime × Except ShardingError GetShardHomePlan :=
  match rt.rebalanceInProgress.lookup shard with
  | some requesters =>
    ({ rt with rebalanceInProgress := rt.rebalanceInProgress.insert shard (insert requester requesters) },
      .ok (.deferred shard requester))
  | none =>
    if ¬ rt.allRegionsRegistered then (rt, .ok (.ignored shard .notAllRegionsRegistered))
    else match rt.state.shardHome shard with
      | some region =>
        if region ∈ rt.terminatingRegions then
          (rt, .ok (.ignored shard (.homeRegionTerminating region)))
        else (rt, .ok (.reply shard region))
      | none =>
        let active := rt.activeAllocations
        if active.regions = ∅ then (rt, .ok (.ignored shard .noActiveRegions))
        else match strategy.allocateShard requester shard active with
          | .error e => (rt, .error e)
          | .ok region =>
            if region ∉ active.regions then
              (rt, .ok (.ignored shard (.allocatedRegionNoLongerActive region)))
            else match rt.applyEvent (.shardHomeAllocated shard region) with
              | (rt, .ok _) => (rt, .ok (.allocated shard region))
              | (rt, .error e) => (rt, .error e)

/-- The remembered shards that have no home. -/
def rememberedShardHomeRequests : List ShardId :=
  if rt.state.rememberEntities then ordered rt.state.unallocatedShards else []

/-- Requests a home for each of the shards; the first error ends it. -/
def requestShardHomes (strategy : ShardAllocationStrategy) (requester : RegionId) :
    CoordinatorRuntime → List ShardId →
      CoordinatorRuntime × Except ShardingError (List GetShardHomePlan)
  | rt, [] => (rt, .ok [])
  | rt, shard :: shards =>
    match rt.requestShardHome strategy requester shard with
    | (rt, .error e) => (rt, .error e)
    | (rt, .ok plan) =>
      match requestShardHomes strategy requester rt shards with
      | (rt, .ok plans) => (rt, .ok (plan :: plans))
      | (rt, .error e) => (rt, .error e)

def allocateRememberedShardHomes (requester : RegionId) :
    CoordinatorRuntime × Except ShardingError (List GetShardHomePlan) :=
  requestShardHomes strategy requester rt rt.rememberedShardHomeRequests

end CoordinatorRuntime

end Kairo.Sharding
