import Kairo.Cluster.Gossip

/-!
# Leader selection, convergence and leader actions

The oldest reachable eligible member leads; once the gossip has converged the leader promotes joining
members, advances leaving ones and removes the terminal ones that are gone.
-/

namespace Kairo.Cluster

/-! ## Leader selection -/

namespace LeaderSelection

def forMembers (g : Gossip) (self : UniqueAddress) (members : List Member) : Option UniqueAddress :=
  let reachable := (members.filter (·.status ≠ .down)).filter fun m =>
    g.reachability.isAllReachable ∨ m.uniqueAddress = self ∨
      g.reachability.statusOf m.uniqueAddress = .reachable
  let sorted := reachable.insertionSort fun a b => a.ageKey ≤ b.ageKey
  ((sorted.find? (·.status.participatesInLeaderSelection)).or
    (sorted.argmin (·.leaderFallbackKey))).map (·.uniqueAddress)

def forGossip (g : Gossip) (self : UniqueAddress) : Option UniqueAddress :=
  forMembers g self g.members

end LeaderSelection

/-! ## Convergence -/

inductive ConvergenceBlocker
  | notSeen (node : UniqueAddress) (status : MemberStatus)
  | unreachable (node : UniqueAddress) (status : MemberStatus)
  deriving DecidableEq, Repr

namespace Convergence

variable (g : Gossip)

def firstConvergingMember : Bool :=
  !g.members.any (·.status.participatesInConvergence)

def participates (m : Member) : Bool :=
  if firstConvergingMember g then m.status.participatesInFirstConvergence
  else m.status.participatesInConvergence

def unreachableSubjects (self : UniqueAddress) (exitingConfirmed : Finset UniqueAddress) :
    List UniqueAddress :=
  let downObservers := (g.members.filter (!·.status.observesConvergenceReachability)).map
    (·.uniqueAddress)
  ((g.reachability.records.filter fun r =>
    r.observer ∉ downObservers ∧ r.subject ∈ g.addresses ∧ r.subject ≠ self ∧
      r.subject ∉ exitingConfirmed ∧ r.isNegative).map (·.subject)).dedup

/-- The members that prevent convergence. -/
def checkWithExitingConfirmed (self : UniqueAddress)
    (exitingConfirmed : Finset UniqueAddress) : List ConvergenceBlocker :=
  let notSeen := g.members.filterMap fun m =>
    if participates g m ∧ m.uniqueAddress ∉ g.seen ∧ m.uniqueAddress ∉ exitingConfirmed then
      some (.notSeen m.uniqueAddress m.status)
    else none
  let unreachable := (unreachableSubjects g self exitingConfirmed).filterMap fun n =>
    (g.member n).bind fun m =>
      if m.status.canSkipUnreachableForConvergence then none else some (.unreachable n m.status)
  notSeen ++ unreachable

end Convergence

/-! ## Leader actions -/

structure LeaderActionOutcome where
  gossip : Gossip
  changedMembers : List Member
  removedMembers : List UniqueAddress
  deriving DecidableEq

def LeaderActionOutcome.changed (o : LeaderActionOutcome) : Bool :=
  !o.changedMembers.isEmpty || !o.removedMembers.isEmpty

namespace LeaderActions

def nextUpNumber (g : Gossip) : ℕ := ((g.members.filterMap (·.upNumber)).max?).getD 0 + 1

/-- The promoted and advanced members; `next` is the up number of the next promotion. -/
def changedFrom (next : ℕ) : List Member → List Member
  | [] => []
  | m :: ms =>
    match m.status with
    | .joining | .weaklyUp => (m.withStatus .up).withUpNumber next :: changedFrom (next + 1) ms
    | .leaving => m.withStatus .exiting :: changedFrom next ms
    | .up | .exiting | .down | .removed => changedFrom next ms

def changedMembers (g : Gossip) : List Member := changedFrom (nextUpNumber g) g.members

def removedMembers (g : Gossip) (exitingConfirmed : Finset UniqueAddress) : List UniqueAddress :=
  (g.members.filter fun m =>
    m.status.canSkipUnreachableForConvergence ∧
      (m.uniqueAddress ∈ g.reachability.allUnreachableOrTerminated ∨
        m.status = .exiting ∧ m.uniqueAddress ∈ exitingConfirmed)).map (·.uniqueAddress)

/-- One pass of the leader; the error carries the members that prevent convergence. -/
def onConvergence (g : Gossip) (self : UniqueAddress) (removalTimestamp : ℕ)
    (exitingConfirmed : Finset UniqueAddress) : Except (List ConvergenceBlocker) LeaderActionOutcome :=
  let blockers := Convergence.checkWithExitingConfirmed g self exitingConfirmed
  if blockers ≠ [] then .error blockers
  else
    let removed := removedMembers g exitingConfirmed
    let changed := changedMembers g
    if removed.isEmpty ∧ changed.isEmpty then .ok ⟨g, changed, removed⟩
    else
      let g' := removed.foldl (fun g n => g.remove n removalTimestamp) (g.updateMembers changed)
      .ok ⟨(g'.incrementVersion self).onlySeen self, changed, removed⟩

end LeaderActions

end Kairo.Cluster
