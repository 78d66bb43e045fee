import Kairo.Cluster.Reachability
import Kairo.Cluster.VectorClock
import Mathlib.Data.List.Sort

/-!
# Cluster gossip

The membership state that nodes exchange: members, seen table, reachability, vector clock and removal
tombstones, with every operation the membership actor performs on it.
-/

namespace Kairo.Cluster

open Kairo.Lib List

/-- The vector-clock dimension of a node. -/
def vclockNode (n : UniqueAddress) : String := n.address.render ++ "-" ++ toString n.uid

structure Gossip where
  members : List Member
  seen : Finset UniqueAddress
  reachability : Reachability
  version : VectorClock
  tombstones : FinMap UniqueAddress ℕ
  deriving DecidableEq

/-! ## Member lists -/

/-- Adds a member to a list that holds each address once, keeping the stronger fact. -/
def upsertMember (ms : List Member) (m : Member) : List Member :=
  if ms.any (·.uniqueAddress = m.uniqueAddress) then
    ms.map fun x => if x.uniqueAddress = m.uniqueAddress then x.highestPriority m else x
  else ms ++ [m]

/-- Stable order of members by their rendered address. -/
def sortMembers (ms : List Member) : List Member :=
  ms.insertionSort fun a b => a.uniqueAddress.orderingKey ≤ b.uniqueAddress.orderingKey

def normalizeMembers (ms : List Member) : List Member :=
  sortMembers (ms.foldl upsertMember [])

/-- What a merge keeps of a member that only one side knows. -/
def pushSingleSidedMember (tombstones : FinMap UniqueAddress ℕ) (m : Member) : List Member :=
  if m.uniqueAddress ∉ tombstones ∧ !m.status.isRemovedBySingleSidedMerge then [m] else []

/-- One walk along both sorted member lists. -/
def mergeMembers (tombstones : FinMap UniqueAddress ℕ) : List Member → List Member → List Member
  | [], right => right.flatMap (pushSingleSidedMember tombstones)
  | left, [] => left.flatMap (pushSingleSidedMember tombstones)
  | l :: left, r :: right =>
    if l.uniqueAddress = r.uniqueAddress then
      l.highestPriority r :: mergeMembers tombstones left right
    else if l.uniqueAddress.orderingKey ≤ r.uniqueAddress.orderingKey then
      pushSingleSidedMember tombstones l ++ mergeMembers tombstones left (r :: right)
    else
      pushSingleSidedMember tombstones r ++ mergeMembers tombstones (l :: left) right
termination_by left right => left.length + right.length

namespace Gossip

/-! ## Construction and reading -/

def new : Gossip := ⟨[], ∅, .new, .new, ∅⟩

def fromMembers (ms : List Member) : Gossip := { new with members := normalizeMembers ms }

/-- The gossip of local systems that all came up, in the order of the list. -/
def allUp (systems : List String) : Gossip :=
  .fromMembers (systems.mapIdx fun i system =>
    ((Member.new (.localTo system (i + 1)) []).withStatus .up).withUpNumber (i + 1))

variable (g : Gossip)

def member (node : UniqueAddress) : Option Member :=
  g.members.find? (·.uniqueAddress = node)

def hasMember (node : UniqueAddress) : Bool := (g.member node).isSome

def addresses : List UniqueAddress := g.members.map (·.uniqueAddress)

/-! ## Local changes -/

def incrementVersion (node : UniqueAddress) : Gossip :=
  { g with version := g.version.increment (vclockNode node) }

def addMember (m : Member) : Gossip :=
  { g with members := normalizeMembers (g.members ++ [m]) }

/-- Replaces the facts of known members; the last entry given for an address counts. -/
def updateMembers (changed : List Member) : Gossip :=
  if changed.isEmpty then g
  else
    { g with
      members := normalizeMembers (g.members.map fun m =>
        (changed.reverse.find? (·.uniqueAddress = m.uniqueAddress)).getD m) }

def markSeen (node : UniqueAddress) : Gossip := { g with seen := insert node g.seen }

def mergeSeen (g other : Gossip) : Gossip := { g with seen := g.seen ∪ other.seen }

def onlySeen (node : UniqueAddress) : Gossip := { g with seen := {node} }

def withReachability (r : Reachability) : Gossip := { g with reachability := r }

def markDown (node : UniqueAddress) : Gossip :=
  { g with
    members := g.members.map fun m => if m.uniqueAddress = node then m.withStatus .down else m
    seen := g.seen.erase node }

def remove (node : UniqueAddress) (timestamp : ℕ) : Gossip :=
  { members := g.members.filter (·.uniqueAddress ≠ node)
    seen := g.seen.erase node
    reachability := g.reachability.remove {node}
    version := g.version.prune (vclockNode node)
    tombstones := g.tombstones.insert node timestamp }

/-! ## Looking up members -/

/-- Every address has at most one entry. -/
def Normalized : Prop := g.addresses.Nodup

instance (g : Gossip) : Decidable g.Normalized := inferInstanceAs (Decidable (List.Nodup _))

lemma mem_of_member {g : Gossip} {n : UniqueAddress} {m : Member} (h : g.member n = some m) :
    m ∈ g.members ∧ m.uniqueAddress = n :=
  ⟨mem_of_find?_eq_some h, by simpa using find?_some h⟩

lemma member_isSome_iff {g : Gossip} {n : UniqueAddress} :
    (g.member n).isSome ↔ n ∈ g.addresses := by
  simp [member, addresses, find?_isSome]

/-- Where every address has one entry, looking a member up finds it. -/
lemma find?_eq_some_iff {ms : List Member} (h : (ms.map (·.uniqueAddress)).Nodup)
    {x : UniqueAddress} {m : Member} :
    ms.find? (·.uniqueAddress = x) = some m ↔ m ∈ ms ∧ m.uniqueAddress = x := by
  constructor
  · exact fun hf => ⟨mem_of_find?_eq_some hf, by simpa using find?_some hf⟩
  · rintro ⟨hm, rfl⟩
    obtain ⟨y, hy⟩ : ∃ y, ms.find? (·.uniqueAddress = m.uniqueAddress) = some y :=
      Option.isSome_iff_exists.mp (find?_isSome.mpr ⟨m, hm, by simp⟩)
    have he : y.uniqueAddress = m.uniqueAddress := by simpa using find?_some hy
    rw [hy, inj_on_of_nodup_map h (mem_of_find?_eq_some hy) hm he]

lemma member_of_mem {g : Gossip} (hn : g.Normalized) {m : Member} (hm : m ∈ g.members) :
    g.member m.uniqueAddress = some m :=
  (find?_eq_some_iff hn).mpr ⟨hm, rfl⟩

lemma find?_map_of_address (ms : List Member) (f : Member → Member)
    (hf : ∀ m, (f m).uniqueAddress = m.uniqueAddress) (n : UniqueAddress) :
    (ms.map f).find? (·.uniqueAddress = n) = (ms.find? (·.uniqueAddress = n)).map f := by
  rw [find?_map]
  congr 2
  funext m
  simp [hf]

lemma member_markDown (node n : UniqueAddress) :
    (g.markDown node).member n =
      (g.member n).map fun m => if n = node then m.withStatus .down else m := by
  unfold member markDown
  rw [find?_map_of_address _ _ (fun m => by split_ifs <;> rfl)]
  cases h : g.members.find? (·.uniqueAddress = n) with
  | none => rfl
  | some m =>
    have hm : m.uniqueAddress = n := by simpa using find?_some h
    simp [hm]

/-! ## Merge -/

/-- Drops the clock dimension of every tombstoned node. -/
def pruneTombstoned (tombstones : FinMap UniqueAddress ℕ) (c : VectorClock) : VectorClock :=
  ⟨FinMap.retain (fun name => decide (name ∉ tombstones.keys.image vclockNode)) c.versions⟩

def merge (g other : Gossip) : Gossip :=
  -- the entries of `other` win where both sides hold a tombstone
  let tombstones := other.tombstones ∪ g.tombstones
  let members := mergeMembers tombstones g.members other.members
  { members := members
    seen := ∅
    reachability :=
      if g.reachability.isUnversionedAllReachable && other.reachability.isUnversionedAllReachable then
        .new
      else g.reachability.merge (members.map (·.uniqueAddress)).dedup other.reachability
    version := pruneTombstoned tombstones (g.version.merge other.version)
    tombstones := tombstones }

end Gossip

end Kairo.Cluster
