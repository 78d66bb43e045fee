import Kairo.Lib.FinMap

/-!
# The routing view of a shard region

`ShardRegionRuntime`: the cached homes of shards with their inverse index, the local shards with the
sets of starting ones and of those being handed off, and a bounded buffer of envelopes with one queue
per shard.  The operations change this state and return a plan; the region actor carries it out.
-/

namespace Kairo.Sharding

open Kairo.Lib

abbrev ShardId := String

abbrev RegionId := String

abbrev EntityId := String

/-- A business message with the entity it is for. -/
structure ShardingEnvelope (M : Type*) where
  entityId : EntityId
  message : M
  deriving DecidableEq

inductive ShardingError
  | noShardRegions
  | unknownRegion (region : RegionId)
  | regionAlreadyRegistered (region : RegionId)
  | unknownRegionProxy (proxy : RegionId)
  | regionProxyAlreadyRegistered (proxy : RegionId)
  | unknownShard (shard : ShardId)
  | shardAlreadyAllocated (shard : ShardId)
  | inconsistentShardHome (shard : ShardId) (currentRegion newRegion : RegionId)
  | shardHomeDuringHandOff (shard : ShardId) (region : RegionId)
  deriving DecidableEq

/-! ## Plans -/

inductive RegionDropReason
  | emptyShardId
  | bufferFull
  deriving DecidableEq

inductive RegionRoutePlan (M : Type*)
  | deliverLocal (shard : ShardId) (message : ShardingEnvelope M)
  | forward (shard : ShardId) (region : RegionId) (message : ShardingEnvelope M)
  /-- `request` is the shard whose home is to be requested. -/
  | buffered (shard : ShardId) (request : Option ShardId)
  | dropped (shard : Option ShardId) (reason : RegionDropReason) (message : ShardingEnvelope M)
  deriving DecidableEq

inductive HostShardPlan (M : Type*)
  | startLocalShard (shard : ShardId)
  /-- `started` is the shard named in the acknowledgement. -/
  | alreadyStarted (shard started : ShardId) (buffered : List (ShardingEnvelope M))
  | ignoredGracefulShutdown (shard : ShardId)
  deriving DecidableEq

inductive ShardHomePlan (M : Type*)
  | startLocalShard (shard : ShardId)
  | deliverLocal (shard : ShardId) (buffered : List (ShardingEnvelope M))
  | forward (shard : ShardId) (region : RegionId) (buffered : List (ShardingEnvelope M))
  deriving DecidableEq

structure ShardStartedPlan (M : Type*) where
  started : ShardId
  buffered : List (ShardingEnvelope M)
  deriving DecidableEq

inductive BeginHandOffPlan
  /-- `ack` is the shard named in the acknowledgement. -/
  | ack (shard ack : ShardId)
  | ignoredPreparingForShutdown (shard : ShardId)
  deriving DecidableEq

inductive HandOffPlan
  | forwardToLocalShard (shard : ShardId) (droppedBuffered : ℕ)
  /-- `stopped` is the shard named in the acknowledgement. -/
  | replyShardStopped (shard stopped : ShardId) (droppedBuffered : ℕ)
  deriving DecidableEq

/-! ## The runtime -/

structure ShardRegionRuntime (M : Type*) where
  selfRegion : RegionId
  bufferCapacity : ℕ
  regionByShard : FinMap ShardId RegionId
  shardsByRegion : FinMap RegionId (Finset ShardId)
  localShards : Finset ShardId
  startingShards : Finset ShardId
  handingOffShards : Finset ShardId
  shardBuffers : FinMap ShardId (List (ShardingEnvelope M))
  gracefulShutdownInProgress : Bool
  preparingForShutdown : Bool

namespace ShardRegionRuntime

variable {M : Type*}

def new (selfRegion : RegionId) (bufferCapacity : ℕ) : ShardRegionRuntime M where
  selfRegion
  bufferCapacity
  regionByShard := ∅
  shardsByRegion := ∅
  localShards := ∅
  startingShards := ∅
  handingOffShards := ∅
  shardBuffers := ∅
  gracefulShutdownInProgress := false
  preparingForShutdown := false

variable (rt : ShardRegionRuntime M)

def buffer (shard : ShardId) : List (ShardingEnvelope M) := (rt.shardBuffers.lookup shard).getD []

def bufferedCount (shard : ShardId) : ℕ := (rt.buffer shard).length

def totalBufferedCount : ℕ := (rt.shardBuffers.entries.map fun e => e.2.length).sum

def gracefulShutdownComplete : Bool :=
  rt.gracefulShutdownInProgress && decide (rt.localShards = ∅) && decide (rt.totalBufferedCount = 0)

def unassignShard (shard : ShardId) : ShardRegionRuntime M :=
  match rt.regionByShard.lookup shard with
  | none => rt
  | some region =>
    { rt with
      regionByShard := rt.regionByShard.erase shard
      shardsByRegion :=
        match rt.shardsByRegion.lookup region with
        | none => rt.shardsByRegion
        | some shards =>
          if shards.erase shard = ∅ then rt.shardsByRegion.erase region
          else rt.shardsByRegion.insert region (shards.erase shard) }

def assignShard (shard : ShardId) (region : RegionId) : ShardRegionRuntime M :=
  let rt := rt.unassignShard shard
  { rt with
    regionByShard := rt.regionByShard.insert shard region
    shardsByRegion :=
      rt.shardsByRegion.insert region (insert shard ((rt.shardsByRegion.lookup region).getD ∅)) }

/-- Queues an envelope unless the buffer is full. -/
def bufferMessage (shard : ShardId) (message : ShardingEnvelope M) :
    Option (ShardRegionRuntime M) :=
  if rt.bufferCapacity ≤ rt.totalBufferedCount then none
  else some { rt with shardBuffers := rt.shardBuffers.insert shard (rt.buffer shard ++ [message]) }

def drainBuffer (shard : ShardId) : ShardRegionRuntime M × List (ShardingEnvelope M) :=
  ({ rt with shardBuffers := rt.shardBuffers.erase shard }, rt.buffer shard)

def route (shard : ShardId) (message : ShardingEnvelope M) :
    ShardRegionRuntime M × RegionRoutePlan M :=
  if shard = "" then (rt, .dropped none .emptyShardId message)
  else match rt.regionByShard.lookup shard with
    | some region =>
      if region = rt.selfRegion then
        if shard ∈ rt.localShards ∧ shard ∉ rt.shardBuffers then (rt, .deliverLocal shard message)
        else match rt.bufferMessage shard message with
          | some rt => (rt, .buffered shard none)
          | none => (rt, .dropped (some shard) .bufferFull message)
      else (rt, .forward shard region message)
    | none =>
      match rt.bufferMessage shard message with
      | some rt' => (rt', .buffered shard (if shard ∈ rt.shardBuffers then none else some shard))
      | none => (rt, .dropped (some shard) .bufferFull message)

def hostShard (shard : ShardId) : ShardRegionRuntime M × HostShardPlan M :=
  if rt.gracefulShutdownInProgress then (rt, .ignoredGracefulShutdown shard)
  else
    let rt := rt.assignShard shard rt.selfRegion
    if shard ∈ rt.localShards then
      let (rt, buffered) := rt.drainBuffer shard
      (rt, .alreadyStarted shard shard buffered)
    else ({ rt with startingShards := insert shard rt.startingShards }, .startLocalShard shard)

def recordShardHome (shard : ShardId) (region : RegionId) :
    Except ShardingError (ShardRegionRuntime M × ShardHomePlan M) :=
  if shard ∈ rt.handingOffShards then .error (.shardHomeDuringHandOff shard region)
  else if rt.regionByShard.lookup shard = some rt.selfRegion ∧ region ≠ rt.selfRegion then
    .error (.inconsistentShardHome shard rt.selfRegion region)
  else
    let rt := rt.assignShard shard region
    if region = rt.selfRegion then
      if shard ∈ rt.localShards then
        let (rt, buffered) := rt.drainBuffer shard
        .ok (rt, .deliverLocal shard buffered)
      else .ok ({ rt with startingShards := insert shard rt.startingShards }, .startLocalShard shard)
    else
      let (rt, buffered) := rt.drainBuffer shard
      .ok (rt, .forward shard region buffered)

def markShardStarted (shard : ShardId) : ShardRegionRuntime M × ShardStartedPlan M :=
  let rt := { rt with
    startingShards := rt.startingShards.erase shard
    localShards := insert shard rt.localShards }
  let rt := rt.assignShard shard rt.selfRegion
  let (rt, buffered) := rt.drainBuffer shard
  (rt, ⟨shard, buffered⟩)

def beginHandoff (shard : ShardId) : ShardRegionRuntime M × BeginHandOffPlan :=
  if rt.preparingForShutdown then (rt, .ignoredPreparingForShutdown shard)
  else (rt.unassignShard shard, .ack shard shard)

def handoff (shard : ShardId) : ShardRegionRuntime M × HandOffPlan :=
  let droppedBuffered := rt.bufferedCount shard
  let rt := { rt with shardBuffers := rt.shardBuffers.erase shard }
  let rt := rt.unassignShard shard
  if shard ∈ rt.localShards then
    ({ rt with handingOffShards := insert shard rt.handingOffShards },
      .forwardToLocalShard shard droppedBuffered)
  else (rt, .replyShardStopped shard shard droppedBuffered)

def markShardStopped (shard : ShardId) : ShardRegionRuntime M :=
  let rt := { rt with
    localShards := rt.localShards.erase shard
    startingShards := rt.startingShards.erase shard
    handingOffShards := rt.handingOffShards.erase shard }
  rt.unassignShard shard

/-- Forgets every home at a region that has stopped; the buffers stay. -/
def markRegionStopped (region : RegionId) : ShardRegionRuntime M × Finset ShardId :=
  match rt.shardsByRegion.lookup region with
  | none => (rt, ∅)
  | some shards =>
    ({ rt with
      shardsByRegion := rt.shardsByRegion.erase region
      regionByShard := rt.regionByShard.retain fun shard => decide (shard ∉ shards) }, shards)

/-! ## What the operations leave alone -/

lemma unassignShard_eq (shard : ShardId) : ∃ homes index,
    rt.unassignShard shard = { rt with regionByShard := homes, shardsByRegion := index } := by
  unfold unassignShard
  split <;> exact ⟨_, _, rfl⟩

lemma assignShard_eq (shard : ShardId) (region : RegionId) : ∃ homes index,
    rt.assignShard shard region = { rt with regionByShard := homes, shardsByRegion := index } := by
  obtain ⟨homes, index, h⟩ := rt.unassignShard_eq shard
  unfold assignShard
  rw [h]
  exact ⟨_, _, rfl⟩

variable (shard : ShardId) (region : RegionId)

@[simp] lemma unassignShard_frame :
    (rt.unassignShard shard).localShards = rt.localShards ∧
      (rt.unassignShard shard).handingOffShards = rt.handingOffShards ∧
      (rt.unassignShard shard).shardBuffers = rt.shardBuffers ∧
      (rt.unassignShard shard).selfRegion = rt.selfRegion := by
  obtain ⟨_, _, h⟩ := rt.unassignShard_eq shard
  simp only [h, and_self]

@[simp] lemma assignShard_frame :
    (rt.assignShard shard region).localShards = rt.localShards ∧
      (rt.assignShard shard region).handingOffShards = rt.handingOffShards ∧
      (rt.assignShard shard region).shardBuffers = rt.shardBuffers ∧
      (rt.assignShard shard region).selfRegion = rt.selfRegion := by
  obtain ⟨_, _, h⟩ := rt.assignShard_eq shard region
  simp only [h, and_self]

end ShardRegionRuntime

end Kairo.Sharding
