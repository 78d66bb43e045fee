import Kairo.Lib.Machine
import Kairo.Singleton.Manager

/-!
# The hand-over protocol

All singleton managers of a cluster together.  They consume one shared member-event sequence, each
from the snapshot of a prefix of its own choice and at its own pace, and exchange hand-over and
take-over messages.  A message once sent stays in `sent` and may be delivered at any later time, in
any order, any number of times or never.

A removal reaches a manager in two pieces, as the connector sends them: first the removed node, then
the change of the oldest node, with other messages in between.
-/

namespace Kairo.Singleton

open Kairo.Cluster Kairo.Lib

/-- What the managers of one cluster share: the eligible role, the member events, and on which nodes
a manager runs. -/
structure SingletonCluster where
  scope : SingletonScope
  events : List MemberEvent
  hosts : UniqueAddress → Bool

inductive HandOverMsg
  | handOverToMe | handOverInProgress | handOverDone | takeOverFromMe
  deriving DecidableEq, Repr

structure Packet where
  sender : UniqueAddress
  target : UniqueAddress
  msg : HandOverMsg
  deriving DecidableEq, Repr

open SingletonManagerRuntime (Input)

def Packet.input (p : Packet) : Input :=
  match p.msg with
  | .handOverToMe => .handOverToMe p.sender
  | .handOverInProgress => .handOverInProgress p.sender
  | .handOverDone => .handOverDone p.sender
  | .takeOverFromMe => .takeOverFromMe p.sender

def packetsOf (self : UniqueAddress) (effects : List SingletonManagerEffect) : List Packet :=
  effects.filterMap fun
    | .sendHandOverToMe target => some ⟨self, target, .handOverToMe⟩
    | .sendHandOverInProgress target => some ⟨self, target, .handOverInProgress⟩
    | .sendHandOverDone target => some ⟨self, target, .handOverDone⟩
    | .sendTakeOverFromMe target => some ⟨self, target, .takeOverFromMe⟩
    | .startSingleton | .stopSingleton | .stopManager => none

/-- A started manager with its tracker and its place in the event sequence.  `marked` says that the
removal at that place has already been reported to the manager. -/
structure ManagerNode where
  tracker : SingletonOldestTracker
  runtime : SingletonManagerRuntime
  pos : ℕ
  marked : Bool
  deriving DecidableEq

structure World where
  managers : UniqueAddress → Option ManagerNode
  sent : List Packet

def World.empty : World := ⟨fun _ => none, []⟩

def World.running (w : World) (n : UniqueAddress) : Bool :=
  (w.managers n).any (·.runtime.state.running)

/-- Installs the new state of one manager and sends its packets. -/
def World.install (w : World) (n : UniqueAddress) (node : ManagerNode)
    (effects : List SingletonManagerEffect) : World :=
  { managers := Function.update w.managers n (some node)
    sent := w.sent ++ packetsOf n effects }

namespace SingletonCluster

variable (C : SingletonCluster)

/-- A manager started from the snapshot of the first `p` events. -/
def startNode (n : UniqueAddress) (p : ℕ) : ManagerNode × List SingletonManagerEffect :=
  let (tracker, observation) :=
    SingletonOldestTracker.fromMembers n C.scope (MemberEvent.snapshot (C.events.take p))
  let (runtime, effects) := (SingletonManagerRuntime.new n).applyInitialObservation observation
  (⟨tracker, runtime, p, false⟩, effects)

def inputNode (node : ManagerNode) (i : Input) (marked : Bool) :
    ManagerNode × List SingletonManagerEffect :=
  let (runtime, effects) := node.runtime.apply i
  ({ node with runtime := runtime, marked := marked }, effects)

/-- Feeds an event to the tracker and the resulting change to the manager. -/
def advanceNode (node : ManagerNode) (e : MemberEvent) : ManagerNode × List SingletonManagerEffect :=
  let (tracker, change) := node.tracker.applyMemberEvent e
  let (runtime, effects) :=
    match change with
    | none => (node.runtime, [])
    | some c => node.runtime.apply (.oldestChange c)
  (⟨tracker, runtime, node.pos + 1, false⟩, effects)

inductive Action
  | start (n : UniqueAddress) (p : ℕ)
  | feed (n : UniqueAddress)
  | deliver (packet : Packet)
  | handOverRetry (n : UniqueAddress)
  | takeOverRetry (n : UniqueAddress)
  | terminated (n : UniqueAddress)
  | stopManager (n : UniqueAddress)
  deriving DecidableEq

/-- Gives an input to the manager of a node, if it has started. -/
def inputTo (w : World) (n : UniqueAddress) (i : Input) : Option World :=
  (w.managers n).map fun node =>
    let (node', effects) := inputNode node i node.marked
    w.install n node' effects

/-- A removal is fed to other nodes only when the removed node runs no singleton. -/
def step (w : World) : Action → Option World
  | .start n p =>
    if C.hosts n ∧ w.managers n = none ∧
        ∀ e ∈ C.events.take p, e.isRemoved → e.node ≠ n → !w.running e.node then
      let (node, effects) := C.startNode n p
      some (w.install n node effects)
    else none
  | .feed n =>
    match w.managers n with
    | none => none
    | some node =>
      match C.events[node.pos]? with
      | none => none
      | some e =>
        if e.isRemoved ∧ !node.marked then
          if e.node ≠ n ∧ w.running e.node then none
          else
            let (node', effects) := inputNode node (.markRemoved e.node) true
            some (w.install n node' effects)
        else
          let (node', effects) := advanceNode node e
          some (w.install n node' effects)
  | .deliver packet => if packet ∈ w.sent then inputTo w packet.target packet.input else none
  | .handOverRetry n => inputTo w n .handOverRetry
  | .takeOverRetry n => inputTo w n .takeOverRetry
  | .terminated n => inputTo w n .singletonTerminated
  | .stopManager n => inputTo w n .stopManager

def machine : Machine World Action where
  init w := w = World.empty
  step := C.step

/-! ## What one step does -/

/-- The reason for which a manager gets an input. -/
inductive Given (w : World) (n : UniqueAddress) (node : ManagerNode) (a : Action) : Input → Prop
  | packet (p : Packet) : p ∈ w.sent → p.target = n → a = .deliver p → Given w n node a p.input
  | removal (e : MemberEvent) : C.events[node.pos]? = some e → e.isRemoved = true → a = .feed n →
      Given w n node a (.markRemoved e.node)
  | handOverRetry : Given w n node a .handOverRetry
  | takeOverRetry : Given w n node a .takeOverRetry
  | terminated : Given w n node a .singletonTerminated
  | stopManager : Given w n node a .stopManager

variable {C} {node : ManagerNode} {a : Action} {w : World}

lemma Given.ne_oldestChange {n : UniqueAddress} {i : Input} (h : C.Given w n node a i)
    (c : SingletonOldestChange) : i ≠ .oldestChange c := by
  cases h with
  | packet p =>
    rcases p with ⟨s, t, m⟩
    cases m <;> simp [Packet.input]
  | _ => simp

lemma Given.removed {n j : UniqueAddress} (h : C.Given w n node a (.markRemoved j)) :
    ∃ e, C.events[node.pos]? = some e ∧ e.isRemoved = true ∧ a = .feed n ∧ e.node = j := by
  generalize hi : Input.markRemoved j = i at h
  cases h with
  | packet p =>
    rcases p with ⟨s, t, m⟩
    cases m <;> cases hi
  | removal e he hr ha => exact ⟨e, he, hr, ha, by injection hi with hi; exact hi.symm⟩
  | _ => cases hi

lemma Given.sent {n sender : UniqueAddress} {m : HandOverMsg}
    (h : C.Given w n node a (Packet.input ⟨sender, n, m⟩)) :
    a = .deliver ⟨sender, n, m⟩ ∧ ⟨sender, n, m⟩ ∈ w.sent := by
  generalize hi : Packet.input ⟨sender, n, m⟩ = i at h
  cases h with
  | packet p hp ht ha =>
    rcases p with ⟨s, t, m'⟩
    obtain rfl : t = n := ht
    obtain ⟨rfl, rfl⟩ : sender = s ∧ m = m' := by
      cases m <;> cases m' <;> first | (cases hi; done) | exact ⟨by injection hi, rfl⟩
    exact ⟨ha, hp⟩
  | _ => cases m <;> cases hi

/-- A step starts a manager, hands an input to one, or feeds an event to one. -/
lemma step_cases {w w' : World} (h : C.step w a = some w') :
    (∃ n p, a = .start n p ∧ C.hosts n = true ∧ w.managers n = none ∧
      w' = w.install n (C.startNode n p).1 (C.startNode n p).2) ∨
    (∃ n node i marked, w.managers n = some node ∧ C.Given w n node a i ∧
      w' = w.install n (inputNode node i marked).1 (inputNode node i marked).2) ∨
    (∃ n node e, w.managers n = some node ∧ C.events[node.pos]? = some e ∧
      w' = w.install n (advanceNode node e).1 (advanceNode node e).2) := by
  have input : ∀ {n i}, inputTo w n i = some w' → (∀ node, C.Given w n node a i) →
      ∃ n node i marked, w.managers n = some node ∧ C.Given w n node a i ∧
        w' = w.install n (inputNode node i marked).1 (inputNode node i marked).2 := by
    intro n i hi hg
    obtain ⟨node, hn, rfl⟩ := Option.map_eq_some_iff.mp hi
    exact ⟨n, node, i, node.marked, hn, hg node, rfl⟩
  cases a with
  | start n p =>
    simp only [step] at h
    split at h
    · rename_i hc
      cases h
      exact .inl ⟨n, p, rfl, hc.1, hc.2.1, rfl⟩
    · cases h
  | feed n =>
    simp only [step] at h
    cases hn : w.managers n with
    | none => simp [hn] at h
    | some node =>
      cases he : C.events[node.pos]? with
      | none => simp [hn, he] at h
      | some e =>
        simp only [hn, he] at h
        split at h
        · rename_i hr
          split at h
          · cases h
          · cases h
            exact .inr (.inl ⟨n, node, _, true, hn, .removal e he hr.1 rfl, rfl⟩)
        · cases h
          exact .inr (.inr ⟨n, node, e, hn, he, rfl⟩)
  | deliver p =>
    simp only [step] at h
    split at h
    · rename_i hp
      exact .inr (.inl (input h fun node => .packet p hp rfl rfl))
    · cases h
  | handOverRetry n =>
    exact .inr (.inl (input (i := .handOverRetry) h fun node => .handOverRetry))
  | takeOverRetry n =>
    exact .inr (.inl (input (i := .takeOverRetry) h fun node => .takeOverRetry))
  | terminated n =>
    exact .inr (.inl (input (i := .singletonTerminated) h fun node => .terminated))
  | stopManager n =>
    exact .inr (.inl (input (i := .stopManager) h fun node => .stopManager))

end SingletonCluster

end Kairo.Singleton
