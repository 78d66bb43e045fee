import Mathlib.Data.String.Basic
import Mathlib.Data.Prod.Lex

/-!
# Cluster members

Node identities (`Address`, `UniqueAddress`), the lifecycle status of a member and the member
record itself, with the two orders the cluster uses: the *age* order (`ageKey`, smaller is older)
and the merge priority of `highestPriority`.

The rendered keys are strings, as in the source.  An `Address` is not validated, so two different
nodes may render to one key; where a result needs distinct keys it says so.
-/

namespace Kairo.Cluster

/-- Largest value of the unsigned 64-bit counters. -/
def u64Max : ℕ := 2 ^ 64 - 1

/-! ## Node identities -/

/-- Network or local identity of an actor system. -/
structure Address where
  protocol : String
  system : String
  host : Option String
  port : Option ℕ
  deriving DecidableEq, Repr

def Address.localTo (system : String) : Address :=
  { protocol := "kairo", system := system, host := none, port := none }

/-- The text form `protocol://system[@host[:port]]`. -/
def Address.render (a : Address) : String :=
  a.protocol ++ "://" ++ a.system ++
    match a.host with
    | none => ""
    | some host => "@" ++ host ++
      match a.port with
      | none => ""
      | some port => ":" ++ toString port

/-- An address paired with the incarnation of the process behind it. -/
structure UniqueAddress where
  address : Address
  uid : ℕ
  deriving DecidableEq, Repr

def UniqueAddress.localTo (system : String) (uid : ℕ) : UniqueAddress := ⟨.localTo system, uid⟩

def UniqueAddress.orderingKey (n : UniqueAddress) : String :=
  n.address.render ++ "#" ++ toString n.uid

/-! ## Member status -/

inductive MemberStatus
  | joining | weaklyUp | up | leaving | exiting | down | removed
  deriving DecidableEq, Repr

namespace MemberStatus

def participatesInLeaderSelection : MemberStatus → Bool
  | up | leaving => true
  | _ => false

def participatesInConvergence : MemberStatus → Bool
  | up | leaving => true
  | _ => false

def participatesInFirstConvergence : MemberStatus → Bool
  | joining | weaklyUp | up | leaving => true
  | _ => false

def canSkipUnreachableForConvergence : MemberStatus → Bool
  | down | exiting => true
  | _ => false

def observesConvergenceReachability : MemberStatus → Bool
  | down => false
  | _ => true

def leaderFallbackRank : MemberStatus → ℕ
  | up | leaving => 0
  | weaklyUp => 1
  | joining => 2
  | exiting => 3
  | down => 4
  | removed => 5

def isRemovedBySingleSidedMerge : MemberStatus → Bool
  | down | exiting | removed => true
  | _ => false

def priority : MemberStatus → ℕ
  | joining => 0
  | weaklyUp => 1
  | up => 2
  | leaving => 3
  | exiting => 4
  | down => 5
  | removed => 6

lemma priority_injective : Function.Injective priority := by
  intro a b h
  cases a <;> cases b <;> first | rfl | cases h

end MemberStatus

/-! ## Members -/

/-- Membership fact for one cluster node. -/
structure Member where
  uniqueAddress : UniqueAddress
  status : MemberStatus
  roles : List String
  upNumber : Option ℕ
  deriving DecidableEq, Repr

namespace Member

/-- A joining member without an up number. -/
@[simps] def new (node : UniqueAddress) (roles : List String) : Member :=
  { uniqueAddress := node, status := .joining, roles := roles, upNumber := none }

variable (m : Member)

@[simps] def withStatus (status : MemberStatus) : Member := { m with status := status }

@[simps] def withUpNumber (n : ℕ) : Member := { m with upNumber := some n }

def hasRole (role : String) : Bool := m.roles.any (· == role)

/-- The age of a member: its up number, then its rendered address. -/
def ageKey : ℕ ×ₗ String :=
  toLex (m.upNumber.getD u64Max, m.uniqueAddress.orderingKey)

def isOlderThan (m other : Member) : Bool := decide (m.ageKey < other.ageKey)

def leaderFallbackKey : ℕ ×ₗ (ℕ ×ₗ String) :=
  toLex (m.status.leaderFallbackRank, m.ageKey)

/-- The membership fact that wins a concurrent merge. -/
def highestPriority (left right : Member) : Member :=
  if left.status = right.status then
    if left.isOlderThan right then left else right
  else if right.status.priority ≤ left.status.priority then left
  else right

lemma highestPriority_eq_or (left right : Member) :
    highestPriority left right = left ∨ highestPriority left right = right := by
  unfold highestPriority
  split_ifs <;> simp

lemma highestPriority_uniqueAddress {left right : Member}
    (h : left.uniqueAddress = right.uniqueAddress) :
    (highestPriority left right).uniqueAddress = left.uniqueAddress := by
  rcases highestPriority_eq_or left right with e | e <;> rw [e]
  exact h.symm

end Member

end Kairo.Cluster
