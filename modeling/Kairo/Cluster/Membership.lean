import Kairo.Cluster.Downing
import Kairo.Cluster.LeaderActions

/-!
# The membership actor

The actor that owns the local gossip.  `receive` handles one message and returns the new state with
what the actor sends: the gossip it publishes to its observers and the replies to a join or a gossip.
The registrations only name the recipients of those publications and have no state here.
-/

namespace Kairo.Cluster

structure Join where
  node : UniqueAddress
  roles : List String
  deriving DecidableEq

structure Welcome where
  sender : UniqueAddress
  gossip : Gossip
  deriving DecidableEq

structure GossipEnvelope where
  sender : UniqueAddress
  recipient : UniqueAddress
  sequenceNr : ℕ
  gossip : Gossip
  deriving DecidableEq

/-- Messages of the membership actor.  `replyTo` says whether a reply route is attached. -/
inductive ClusterMembershipMsg
  | joinSelf
  | join (join : Join) (replyTo : Bool)
  | welcome (welcome : Welcome)
  | gossip (envelope : GossipEnvelope) (replyTo : Bool)
  | markUnreachable (observer subject : UniqueAddress)
  | markReachable (observer subject : UniqueAddress)
  | leave (address : Address)
  | down (node : UniqueAddress)
  | downAddress (address : Address)
  | exitingConfirmed (node : UniqueAddress)
  | applyDowningDecision (decision : DowningDecision)
  | leaderActionsTick
  deriving DecidableEq

/-- What the actor sends while it handles a message. -/
inductive MembershipEffect
  | publish (gossip : Gossip)
  | replyWelcome (welcome : Welcome)
  | replyGossip (envelope : GossipEnvelope)
  | gossipTick
  deriving DecidableEq

structure ClusterMembership where
  selfNode : UniqueAddress
  roles : List String
  gossip : Gossip
  sequenceNr : ℕ
  timestamp : ℕ
  initialized : Bool
  exitingConfirmed : Finset UniqueAddress
  deriving DecidableEq

namespace ClusterMembership

def new (selfNode : UniqueAddress) (roles : List String) : ClusterMembership :=
  { selfNode, roles, gossip := .new, sequenceNr := 0, timestamp := 0, initialized := false,
    exitingConfirmed := ∅ }

abbrev Outcome := ClusterMembership × List MembershipEffect

variable (m : ClusterMembership)

/-- Installs a gossip and publishes it when it differs from the current one. -/
def install (g : Gossip) : Outcome :=
  if g ≠ m.gossip then ({ m with gossip := g }, [.publish g]) else (m, [])

lemma install_fst (g : Gossip) : (m.install g).1 = { m with gossip := g } := by
  unfold install
  split_ifs with h
  · rfl
  · rw [not_not.mp h]

/-- Stamps a local change with the own clock entry and resets the seen table. -/
def updateLatestGossip (g : Gossip) : Outcome :=
  m.install ((g.incrementVersion m.selfNode).onlySeen m.selfNode)

def replyWelcome (replyTo : Bool) : List MembershipEffect :=
  if replyTo then [.replyWelcome ⟨m.selfNode, m.gossip⟩] else []

def runLeaderActions : Outcome :=
  if LeaderSelection.forGossip m.gossip m.selfNode ≠ some m.selfNode then (m, [])
  else
    let timestamp := m.timestamp + 1
    match LeaderActions.onConvergence m.gossip m.selfNode timestamp m.exitingConfirmed with
    | .error _ => ({ m with timestamp := timestamp }, [])
    | .ok outcome =>
      let g := if outcome.changed then outcome.gossip else m.gossip
      ({ m with
          timestamp := timestamp
          gossip := g
          exitingConfirmed := m.exitingConfirmed.filter fun n => g.hasMember n },
        if outcome.changed then [.publish g] else [])

def joinNode (j : Join) (replyTo : Bool) : Outcome :=
  match m.gossip.members.find? (·.uniqueAddress.address = j.node.address) with
  | some existing =>
    if existing.uniqueAddress = j.node then (m, m.replyWelcome replyTo)
    else if existing.status = .down then
      -- a new incarnation replaces a downed one at once
      let m := { m with timestamp := m.timestamp + 1 }
      let g := (m.gossip.remove existing.uniqueAddress m.timestamp).addMember
        (Member.new j.node j.roles)
      let (m, effects) := m.updateLatestGossip g
      (m, effects ++ m.replyWelcome replyTo)
    else
      let r := m.gossip.reachability.terminated m.selfNode existing.uniqueAddress
      m.updateLatestGossip ((m.gossip.withReachability r).markDown existing.uniqueAddress)
  | none =>
    let g := m.gossip.addMember (Member.new j.node j.roles)
    let g := if g.hasMember m.selfNode then g else g.addMember (Member.new m.selfNode m.roles)
    let (m, effects) := { m with initialized := true }.updateLatestGossip g
    if j.node = m.selfNode then
      let (m, effects') := m.runLeaderActions
      (m, effects ++ effects')
    else (m, effects ++ m.replyWelcome replyTo)

def welcomed (w : Welcome) : Outcome :=
  if m.initialized ∨ w.sender = m.selfNode ∨ !w.gossip.hasMember m.selfNode then (m, [])
  else
    let g := w.gossip.markSeen m.selfNode
    ({ m with gossip := g, initialized := true }, [.publish g])

/-- The gossip kept after an exchange, and whether the sender gets an answer. -/
def winningGossip (g : Gossip) : Gossip × Bool :=
  match g.version.compare m.gossip.version with
  | .same => (g.mergeSeen m.gossip, decide (m.selfNode ∉ g.seen))
  | .before => (m.gossip, true)
  | .after => (g, decide (m.selfNode ∉ g.seen))
  | .concurrent => (g.merge m.gossip, true)

/-- The envelope passes the guards of the actor. -/
def acceptsGossip (e : GossipEnvelope) : Bool :=
  decide (e.recipient = m.selfNode) && m.gossip.hasMember e.sender &&
    decide (m.gossip.reachability.status m.selfNode e.sender = .reachable) &&
    e.gossip.hasMember m.selfNode

def receiveGossip (e : GossipEnvelope) (replyTo : Bool) : Outcome :=
  if !m.acceptsGossip e then (m, [])
  else
    let (winning, talkback) := m.winningGossip e.gossip
    let (m, effects) := m.install (winning.markSeen m.selfNode)
    if talkback ∧ replyTo then
      let m := { m with sequenceNr := m.sequenceNr + 1 }
      (m, effects ++ [.replyGossip ⟨m.selfNode, e.sender, m.sequenceNr, m.gossip⟩])
    else (m, effects)

def markUnreachable (observer subject : UniqueAddress) : Outcome :=
  m.updateLatestGossip
    (m.gossip.withReachability (m.gossip.reachability.unreachable observer subject))

def markReachable (observer subject : UniqueAddress) : Outcome :=
  m.updateLatestGossip
    (m.gossip.withReachability (m.gossip.reachability.reachable observer subject))

def downNode (node : UniqueAddress) : Outcome :=
  if (m.gossip.member node).any (·.status ≠ .down) then m.updateLatestGossip (m.gossip.markDown node)
  else (m, [])

def leaveAddress (address : Address) : Outcome :=
  match m.gossip.members.find? (·.uniqueAddress.address = address) with
  | none => (m, [])
  | some x =>
    if x.status = .joining ∨ x.status = .weaklyUp ∨ x.status = .up then
      let (m, effects) := m.updateLatestGossip (m.gossip.updateMembers [x.withStatus .leaving])
      (m, effects ++ [.gossipTick])
    else (m, [])

def downAddress (address : Address) : Outcome :=
  match m.gossip.members.find? (·.uniqueAddress.address = address) with
  | none => (m, [])
  | some x => m.downNode x.uniqueAddress

def confirmExiting (node : UniqueAddress) : Outcome :=
  (if m.gossip.hasMember node then
    { m with exitingConfirmed := insert node m.exitingConfirmed } else m, [])

def applyDowningDecision (d : DowningDecision) : Outcome :=
  m.install ((DowningPlan.fromDecision d m.gossip m.selfNode).applyTo m.gossip m.selfNode)

def receive : ClusterMembershipMsg → Outcome
  | .joinSelf => m.joinNode ⟨m.selfNode, m.roles⟩ false
  | .join j replyTo => m.joinNode j replyTo
  | .welcome w => m.welcomed w
  | .gossip e replyTo => m.receiveGossip e replyTo
  | .markUnreachable observer subject => m.markUnreachable observer subject
  | .markReachable observer subject => m.markReachable observer subject
  | .leave address => m.leaveAddress address
  | .down node => m.downNode node
  | .downAddress address => m.downAddress address
  | .exitingConfirmed node => m.confirmExiting node
  | .applyDowningDecision d => m.applyDowningDecision d
  | .leaderActionsTick => m.runLeaderActions

def receiveAll (msgs : List ClusterMembershipMsg) : ClusterMembership :=
  msgs.foldl (fun m msg => (m.receive msg).1) m

end ClusterMembership

end Kairo.Cluster
