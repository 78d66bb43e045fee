import Kairo.Cluster.Member
import Kairo.Lib.Machine

/-!
# Joining through seed nodes

The seed join process contacts the configured seeds, joins where the first acknowledgement points, and
completes with a welcome from there; the first seed may form the cluster itself.  `Acts` says what an
event can do, and what holds in every history of events follows from it.
-/

namespace Kairo.Cluster

open Kairo.Lib List Machine.Reach

inductive ClusterConfigCheck
  | unchecked
  | compatible
  | incompatible
  deriving DecidableEq

inductive ClusterSeedJoinPhase
  | ready
  | contacting
  | joining (target : Address)
  | complete (joinedTo : Address)
  | incompatible (target : Address)
  deriving DecidableEq

structure InitJoin where
  joiningConfigDigest : List UInt8
  deriving DecidableEq

structure InitJoinAck where
  address : Address
  configCheck : ClusterConfigCheck

structure InitJoinNack where
  address : Address

inductive ClusterSeedJoinEffect
  | contact (target : Address) (message : InitJoin)
  | join (target : Address)
  | joinSelf
  | rejectIncompatible (target : Address)
  deriving DecidableEq

inductive ClusterSeedJoinError
  | emptySeedNodes
  | duplicateSeedNode (address : Address)

structure ClusterSeedJoinState where
  selfAddress : Address
  seedNodes : List Address
  contactNodes : List Address
  configDigest : List UInt8
  phase : ClusterSeedJoinPhase
  /-- A `u32` that saturates. -/
  attempts : ℕ
  nackedOrigins : List Address

inductive ClusterSeedJoinEvent
  | start
  | ack (origin : Address) (ack : InitJoinAck)
  | nack (origin : Address) (nack : InitJoinNack)
  | retry
  | seedTimeout
  | welcome (origin : Address)

namespace ClusterSeedJoinState

def new (selfAddress : Address) (seedNodes : List Address) (configDigest : List UInt8) :
    Except ClusterSeedJoinError ClusterSeedJoinState :=
  if seedNodes = [] then .error .emptySeedNodes
  else match seedNodes.zipIdx.find? fun x => x.1 ∈ seedNodes.take x.2 with
    | some x => .error (.duplicateSeedNode x.1)
    | none => .ok ⟨selfAddress, seedNodes, seedNodes.filter (· ≠ selfAddress), configDigest, .ready,
      0, []⟩

variable (s : ClusterSeedJoinState)

def isFirstSeed : Bool := s.seedNodes.head? = some s.selfAddress

def beginContactAttempt : ClusterSeedJoinState × List ClusterSeedJoinEffect :=
  ({ s with phase := .contacting, attempts := min (s.attempts + 1) (2 ^ 32 - 1), nackedOrigins := [] },
    s.contactNodes.map (.contact · ⟨s.configDigest⟩))

/-- The first seed forms the cluster. -/
def joinSelf : ClusterSeedJoinState × List ClusterSeedJoinEffect :=
  ({ s with phase := .complete s.selfAddress }, [.joinSelf])

def start : ClusterSeedJoinState × List ClusterSeedJoinEffect :=
  if s.phase ≠ .ready then (s, [])
  else if s.isFirstSeed ∧ s.contactNodes = [] then s.joinSelf
  else s.beginContactAttempt

def receiveAck (origin : Address) (ack : InitJoinAck) :
    ClusterSeedJoinState × List ClusterSeedJoinEffect :=
  if s.phase ≠ .contacting ∨ origin ∉ s.contactNodes then (s, [])
  else match ack.configCheck with
    | .compatible | .unchecked => ({ s with phase := .joining ack.address }, [.join ack.address])
    | .incompatible =>
      ({ s with phase := .incompatible ack.address }, [.rejectIncompatible ack.address])

def receiveNack (origin : Address) (_nack : InitJoinNack) :
    ClusterSeedJoinState × List ClusterSeedJoinEffect :=
  if s.phase ≠ .contacting ∨ origin ∉ s.contactNodes ∨ origin ∈ s.nackedOrigins then (s, [])
  else
    let s := { s with nackedOrigins := s.nackedOrigins ++ [origin] }
    if s.isFirstSeed ∧ s.nackedOrigins.length = s.contactNodes.length then s.joinSelf else (s, [])

def retry : ClusterSeedJoinState × List ClusterSeedJoinEffect :=
  match s.phase with
  | .ready => s.start
  | .contacting => s.beginContactAttempt
  | .joining _ | .complete _ | .incompatible _ => (s, [])

def seedTimeout : ClusterSeedJoinState × List ClusterSeedJoinEffect :=
  match s.phase with
  | .contacting => if s.isFirstSeed then s.joinSelf else s.retry
  | .ready => s.retry
  | .joining _ => s.beginContactAttempt
  | .complete _ | .incompatible _ => (s, [])

def receiveWelcome (origin : Address) : ClusterSeedJoinState × Bool :=
  match s.phase with
  | .joining target =>
    if target ≠ origin then (s, false) else ({ s with phase := .complete origin }, true)
  | _ => (s, false)

def receive : ClusterSeedJoinEvent → ClusterSeedJoinState × List ClusterSeedJoinEffect
  | .start => s.start
  | .ack origin ack => s.receiveAck origin ack
  | .nack origin nack => s.receiveNack origin nack
  | .retry => s.retry
  | .seedTimeout => s.seedTimeout
  | .welcome origin => ((s.receiveWelcome origin).1, [])

end ClusterSeedJoinState

def ClusterSeedJoinPhase.isFinal : ClusterSeedJoinPhase → Bool
  | .complete _ | .incompatible _ => true
  | _ => false

/-! ## One event -/

namespace ClusterSeedJoinState

/-- What an event can do. -/
inductive Acts (s : ClusterSeedJoinState) (e : ClusterSeedJoinEvent) :
    ClusterSeedJoinState × List ClusterSeedJoinEffect → Prop
  | ignores : Acts s e (s, [])
  | contacts (running : s.phase.isFinal = false) : Acts s e s.beginContactAttempt
  | refused (origins : List Address) (contacting : s.phase = .contacting) :
    Acts s e ({ s with nackedOrigins := origins }, [])
  | forms (origins : List Address) (running : s.phase.isFinal = false) (first : s.isFirstSeed = true) :
    Acts s e { s with nackedOrigins := origins }.joinSelf
  | joins (origin target : Address) (check : ClusterConfigCheck) (contacting : s.phase = .contacting)
      (contact : origin ∈ s.contactNodes) (accepted : check ≠ .incompatible)
      (event : e = .ack origin ⟨target, check⟩) :
    Acts s e ({ s with phase := .joining target }, [.join target])
  | rejects (target : Address) (contacting : s.phase = .contacting) :
    Acts s e ({ s with phase := .incompatible target }, [.rejectIncompatible target])
  | completes (target : Address) (joining : s.phase = .joining target) (event : e = .welcome target) :
    Acts s e ({ s with phase := .complete target }, [])

variable {s : ClusterSeedJoinState} {e : ClusterSeedJoinEvent}

lemma acts_start : Acts s e s.start := by
  unfold start
  split
  · exact .ignores
  · rename_i hp
    have hr : s.phase.isFinal = false := by rw [not_not.mp hp]; rfl
    split
    · rename_i hf
      exact .forms s.nackedOrigins hr hf.1
    · exact .contacts hr

lemma acts_retry : Acts s e s.retry := by
  unfold retry
  split
  · exact acts_start
  · rename_i hp
    exact .contacts (by rw [hp]; rfl)
  all_goals exact .ignores

lemma acts_seedTimeout : Acts s e s.seedTimeout := by
  unfold seedTimeout
  split
  · rename_i hp
    split
    · rename_i hf
      exact .forms s.nackedOrigins (by rw [hp]; rfl) hf
    · exact acts_retry
  · exact acts_retry
  · rename_i hp
    exact .contacts (by rw [hp]; rfl)
  all_goals exact .ignores

/-- **One event.** -/
theorem acts_receive : Acts s e (s.receive e) := by
  cases e with
  | start => exact acts_start
  | retry => exact acts_retry
  | seedTimeout => exact acts_seedTimeout
  | ack origin ack =>
    rw [receive, receiveAck]
    split
    · exact .ignores
    · rename_i h
      obtain ⟨hp, hc⟩ := not_or.mp h
      obtain ⟨target, check⟩ := ack
      cases check with
      | unchecked | compatible =>
        refine .joins origin target _ (not_not.mp hp) (not_not.mp hc) ?_ rfl
        rintro ⟨⟩
      | incompatible => exact .rejects target (not_not.mp hp)
  | nack origin nack =>
    rw [receive, receiveNack]
    split
    · exact .ignores
    · rename_i h
      have hp := not_not.mp (not_or.mp h).1
      dsimp only
      split
      · rename_i hf
        exact .forms _ (by rw [hp]; rfl) hf.1
      · exact .refused _ hp
  | welcome origin =>
    rw [receive, receiveWelcome]
    split
    · rename_i target hp
      split
      · exact .ignores
      · rename_i ht
        obtain rfl := not_not.mp ht
        exact .completes target hp rfl
    · exact .ignores

variable {x : ClusterSeedJoinState × List ClusterSeedJoinEffect}

lemma Acts.of_isFinal (ha : Acts s e x) (hf : s.phase.isFinal = true) : x = (s, []) := by
  cases ha with
  | ignores => rfl
  | contacts running | forms _ running => cases running.symm.trans hf
  | refused _ hp | joins _ _ _ hp | rejects _ hp | completes _ hp =>
    rw [hp] at hf
    cases hf

lemma Acts.of_join {target : Address} (ha : Acts s e x) (hj : .join target ∈ x.2) :
    s.phase = .contacting ∧ ∃ origin check, e = .ack origin ⟨target, check⟩ ∧
      origin ∈ s.contactNodes ∧ check ≠ .incompatible := by
  cases ha with
  | joins origin t check contacting contact accepted event =>
    cases mem_singleton.mp hj
    exact ⟨contacting, origin, check, event, contact, accepted⟩
  | contacts => simp [beginContactAttempt] at hj
  | forms | rejects => cases mem_singleton.mp hj
  | _ => cases hj

end ClusterSeedJoinState

/-! ## Histories -/

/-- The process with what it has sent. -/
structure SeedJoinRun where
  state : ClusterSeedJoinState
  sent : List ClusterSeedJoinEffect

namespace SeedJoinRun

open ClusterSeedJoinState

/-- The process of a node handles any events. -/
def machine (selfAddress : Address) (seedNodes : List Address) :
    Machine SeedJoinRun ClusterSeedJoinEvent where
  init r := ∃ digest, ClusterSeedJoinState.new selfAddress seedNodes digest = .ok r.state ∧ r.sent = []
  step r e := some ⟨(r.state.receive e).1, r.sent ++ (r.state.receive e).2⟩

def latestJoin (r : SeedJoinRun) : Option Address :=
  (r.sent.filterMap fun | .join target => some target | _ => none).getLast?

/-- What holds in every history. -/
structure Safe (selfAddress : Address) (seedNodes : List Address) (r : SeedJoinRun) : Prop where
  self_eq : r.state.selfAddress = selfAddress
  seeds_eq : r.state.seedNodes = seedNodes
  contacts_eq : r.state.contactNodes = seedNodes.filter (· ≠ selfAddress)
  once : r.sent.count .joinSelf ≤ if r.state.phase.isFinal then 1 else 0
  first : .joinSelf ∈ r.sent → seedNodes.head? = some selfAddress
  latest : ∀ target, r.state.phase = .joining target → r.latestJoin = some target

variable {selfAddress : Address} {seedNodes : List Address} {r : SeedJoinRun}

lemma safe_init (h : (machine selfAddress seedNodes).init r) : Safe selfAddress seedNodes r := by
  obtain ⟨s, sent⟩ := r
  obtain ⟨digest, hn, rfl⟩ := h
  rw [ClusterSeedJoinState.new] at hn
  split at hn
  · cases hn
  · split at hn
    · cases hn
    · cases hn
      exact ⟨rfl, rfl, rfl, le_refl 0, nofun, nofun⟩

lemma Safe.quiet (h : Safe selfAddress seedNodes r) {s : ClusterSeedJoinState}
    {effects : List ClusterSeedJoinEffect} (hself : s.selfAddress = r.state.selfAddress)
    (hseeds : s.seedNodes = r.state.seedNodes) (hcontacts : s.contactNodes = r.state.contactNodes)
    (hq : .joinSelf ∉ effects) (hf : r.state.phase.isFinal = true → s.phase.isFinal = true)
    (hl : ∀ target, s.phase = .joining target → latestJoin ⟨s, r.sent ++ effects⟩ = some target) :
    Safe selfAddress seedNodes ⟨s, r.sent ++ effects⟩ := by
  refine ⟨hself.trans h.self_eq, hseeds.trans h.seeds_eq, hcontacts.trans h.contacts_eq, ?_, ?_, hl⟩
  · rw [count_append, count_eq_zero.mpr hq]
    refine h.once.trans ?_
    split_ifs with h₁ h₂
    · exact le_refl 1
    · exact absurd (hf h₁) h₂
    · exact zero_le_one
    · exact le_refl 0
  · exact fun hm => h.first ((mem_append.mp hm).resolve_right hq)

lemma Safe.next (h : Safe selfAddress seedNodes r) {e : ClusterSeedJoinEvent}
    {x : ClusterSeedJoinState × List ClusterSeedJoinEffect} (ha : Acts r.state e x) :
    Safe selfAddress seedNodes ⟨x.1, r.sent ++ x.2⟩ := by
  cases ha with
  | ignores => exact h.quiet rfl rfl rfl nofun id fun t ht => by simpa [latestJoin] using h.latest t ht
  | contacts running =>
    refine h.quiet rfl rfl rfl ?_ (fun hf => ?_) nofun
    · simp [beginContactAttempt]
    · cases running.symm.trans hf
  | refused origins contacting =>
    exact h.quiet rfl rfl rfl nofun id fun t ht => by simpa [latestJoin] using h.latest t ht
  | forms origins running first =>
    have hzero : r.sent.count .joinSelf = 0 := by simpa [running] using h.once
    refine ⟨h.self_eq, h.seeds_eq, h.contacts_eq, ?_, fun _ => ?_, nofun⟩
    · simp [joinSelf, hzero, ClusterSeedJoinPhase.isFinal]
    · rw [← h.self_eq, ← h.seeds_eq]
      exact of_decide_eq_true first
  | joins origin target check contacting contact accepted event =>
    refine h.quiet rfl rfl rfl (by simp) (fun hf => ?_) fun t ht => ?_
    · rw [contacting] at hf
      cases hf
    · cases ht
      simp [latestJoin]
  | rejects target contacting => exact h.quiet rfl rfl rfl (by simp) (fun _ => rfl) nofun
  | completes target joining event => exact h.quiet rfl rfl rfl nofun (fun _ => rfl) nofun

lemma safe_reachable (hr : (machine selfAddress seedNodes).Reachable r) :
    Safe selfAddress seedNodes r := by
  refine invariant (fun _ => safe_init) (fun r e t h _ ht => ?_) hr
  cases ht
  exact h.next acts_receive

/-- **The seed join process over any history.**  It forms a cluster at most once, and only at the
first seed; nothing happens after its end; a join answers an acknowledgement of a contact that is
not incompatible, and goes to the address that the acknowledgement names; and a welcome completes
the process only if it is from the target of the latest join. -/
theorem seed_join_protocol (hr : (machine selfAddress seedNodes).Reachable r) :
    r.sent.count .joinSelf ≤ 1 ∧
      (.joinSelf ∈ r.sent → seedNodes.head? = some selfAddress) ∧
      (r.state.phase.isFinal = true → ∀ e, r.state.receive e = (r.state, [])) ∧
      (∀ e target, .join target ∈ (r.state.receive e).2 → r.state.phase = .contacting ∧
        ∃ origin check, e = .ack origin ⟨target, check⟩ ∧ origin ∈ seedNodes ∧ origin ≠ selfAddress ∧
          check ≠ .incompatible) ∧
      ∀ origin, (r.state.receiveWelcome origin).1.phase ≠ r.state.phase →
        r.latestJoin = some origin := by
  have h := safe_reachable hr
  refine ⟨h.once.trans ?_, h.first, fun hf _ => acts_receive.of_isFinal hf, fun e target hj => ?_,
    fun origin hw => ?_⟩
  · split_ifs
    · exact le_refl 1
    · exact zero_le_one
  · obtain ⟨hp, origin, check, he, hc, ha⟩ := acts_receive.of_join hj
    rw [h.contacts_eq, mem_filter] at hc
    exact ⟨hp, origin, check, he, hc.1, of_decide_eq_true hc.2, ha⟩
  · unfold receiveWelcome at hw
    split at hw
    · rename_i target hp
      split at hw
      · exact absurd rfl hw
      · rename_i ht
        exact not_not.mp ht ▸ h.latest target hp
    · exact absurd rfl hw

end SeedJoinRun

namespace TwoSeeds

/-- The node, the other seed and a node that is no seed. -/
def node : Address := .localTo "node"
def seed : Address := .localTo "seed"
def other : Address := .localTo "other"

def ready : SeedJoinRun := ⟨⟨node, [seed], [seed], [], .ready, 0, []⟩, []⟩

theorem seed_join_protocol_welcome : ∃ r, (SeedJoinRun.machine node [seed]).Reachable r ∧
    (r.state.receiveWelcome seed).1.phase ≠ r.state.phase ∧ r.latestJoin = some seed := by
  obtain ⟨r, hr, hw⟩ := exists_of_exec (M := SeedJoinRun.machine node [seed])
    (c := fun _ _ => True) (s := ready)
    (P := fun r => (r.state.receiveWelcome seed).1.phase ≠ r.state.phase)
    [.start, .ack seed ⟨seed, .compatible⟩] ⟨[], rfl, rfl⟩ (by decide +kernel)
  exact ⟨r, hr, hw, (SeedJoinRun.seed_join_protocol hr).2.2.2.2 seed hw⟩

/-- A join goes where an acknowledgement points, also if that was not contacted. -/
theorem joins_elsewhere : ∃ r, (SeedJoinRun.machine node [seed]).Reachable r ∧
    r.state.contactNodes = [seed] ∧
    .join other ∈ (r.state.receive (.ack seed ⟨other, .unchecked⟩)).2 :=
  exists_of_exec (s := ready) [.start] ⟨[], rfl, rfl⟩ (by decide +kernel)

end TwoSeeds

end Kairo.Cluster
