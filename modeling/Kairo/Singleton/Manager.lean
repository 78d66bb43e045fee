import Kairo.Singleton.Oldest
import Mathlib.Data.Finset.Insert

/-!
# The singleton manager

The ownership and hand-over state machine of one node.  Every handler returns the new runtime and the
effects for the actor around it.  `apply` gathers the handlers under one input type; the lemmas at
the end say once what an input can do to the state, and everything about runs is derived from them.
-/

namespace Kairo.Singleton

open Kairo.Cluster

inductive SingletonManagerState
  | start
  | younger (previousOldest : List UniqueAddress)
  | becomingOldest (previousOldest : List UniqueAddress) (handoverStarted : Bool)
  | oldest (singletonRunning : Bool)
  | wasOldest (singletonRunning : Bool) (newOldest : Option UniqueAddress)
  | handingOver (singletonRunning : Bool) (handoverTo : Option UniqueAddress)
  | ended
  | stopped
  deriving DecidableEq, Repr

inductive SingletonManagerEffect
  | startSingleton
  | stopSingleton
  | sendHandOverToMe (target : UniqueAddress)
  | sendHandOverInProgress (target : UniqueAddress)
  | sendHandOverDone (target : UniqueAddress)
  | sendTakeOverFromMe (target : UniqueAddress)
  | stopManager
  deriving DecidableEq, Repr

structure SingletonManagerRuntime where
  selfNode : UniqueAddress
  state : SingletonManagerState
  removed : Finset UniqueAddress
  deriving DecidableEq

namespace SingletonManagerRuntime

abbrev Outcome := SingletonManagerRuntime × List SingletonManagerEffect

def new (self : UniqueAddress) : SingletonManagerRuntime := ⟨self, .start, ∅⟩

@[simps]
def goto (r : SingletonManagerRuntime) (s : SingletonManagerState) : SingletonManagerRuntime :=
  { r with state := s }

def withoutSelf (nodes : List UniqueAddress) (self : UniqueAddress) : List UniqueAddress :=
  nodes.filter (· ≠ self)

def gotoOldest (r : SingletonManagerRuntime) : Outcome := (r.goto (.oldest true), [.startSingleton])

def handoverDoneTo (r : SingletonManagerRuntime) : Option UniqueAddress → Outcome
  | some target => (r.goto .ended, [.sendHandOverDone target])
  | none => (r.goto (.younger []), [])

def gotoHandingOver (r : SingletonManagerRuntime) (running : Bool)
    (target : Option UniqueAddress) : Outcome :=
  if running then
    (r.goto (.handingOver true target),
      (target.map .sendHandOverInProgress).toList ++ [.stopSingleton])
  else r.handoverDoneTo target

def stopManager (r : SingletonManagerRuntime) : Outcome := (r.goto .stopped, [.stopManager])

def applyInitialObservation (r : SingletonManagerRuntime) (o : SingletonOldestObservation) :
    Outcome :=
  if o.oldest = some r.selfNode ∧ o.safeToBeOldest then r.gotoOldest
  else if o.oldest = some r.selfNode then
    (r.goto (.becomingOldest (withoutSelf o.olderOrSelf r.selfNode) false), [])
  else (r.goto (.younger (withoutSelf o.olderOrSelf r.selfNode)), [])

/-- Records a removal and advances a transition that waits for it. -/
def markRemoved (r : SingletonManagerRuntime) (node : UniqueAddress) : Outcome :=
  let r := { r with removed := insert node r.removed }
  if node = r.selfNode then r.stopManager
  else
    match r.state with
    | .younger previous => (r.goto (.younger (previous.filter (· ≠ node))), [])
    | .becomingOldest previous started =>
      let previous := previous.filter (· ≠ node)
      if previous.all (· ∈ r.removed) then r.gotoOldest
      else (r.goto (.becomingOldest previous started), [])
    | .wasOldest running (some newOldest) =>
      if newOldest = node then r.gotoHandingOver running none else (r, [])
    | _ => (r, [])

def oldestChangedWhileOldest (r : SingletonManagerRuntime) (running : Bool) :
    Option UniqueAddress → Outcome
  | some oldest =>
    if oldest = r.selfNode then (r, [])
    else if oldest ∈ r.removed then r.gotoHandingOver running none
    else (r.goto (.wasOldest running (some oldest)), [.sendTakeOverFromMe oldest])
  | none => (r.goto (.wasOldest running none), [])

def oldestChanged (r : SingletonManagerRuntime) (oldest : Option UniqueAddress) : Outcome :=
  match r.state with
  | .younger previous =>
    if oldest = some r.selfNode then
      if previous.all (· ∈ r.removed) then r.gotoOldest
      else
        match previous with
        | first :: _ => (r.goto (.becomingOldest previous false), [.sendHandOverToMe first])
        | [] => r.gotoOldest
    else
      -- the source puts the new oldest node into a copy of the list and drops the copy
      (r, [])
  | .oldest running | .wasOldest running _ => r.oldestChangedWhileOldest running oldest
  | _ => (r, [])

def applyOldestChange (r : SingletonManagerRuntime) : SingletonOldestChange → Outcome
  | .oldestChanged oldest => r.oldestChanged oldest
  | .selfRemoved => r.markRemoved r.selfNode
  | .selfDowned => r.stopManager

def handOverToMe (r : SingletonManagerRuntime) (sender : UniqueAddress) : Outcome :=
  match r.state with
  | .younger _ => (r, [.sendHandOverDone sender])
  | .oldest running | .wasOldest running _ => r.gotoHandingOver running (some sender)
  | .handingOver _ (some target) =>
    (r, if target = sender then [.sendHandOverInProgress sender] else [])
  | _ => (r, [])

def handOverInProgress (r : SingletonManagerRuntime) (sender : UniqueAddress) : Outcome :=
  match r.state with
  | .becomingOldest previous _ =>
    if previous.head? = some sender then (r.goto (.becomingOldest previous true), []) else (r, [])
  | _ => (r, [])

def handOverDone (r : SingletonManagerRuntime) (sender : UniqueAddress) : Outcome :=
  match r.state with
  | .becomingOldest previous _ => if previous.head? = some sender then r.gotoOldest else (r, [])
  | _ => (r, [])

def handOverRetry (r : SingletonManagerRuntime) : Outcome :=
  match r.state with
  | .becomingOldest previous false => (r, (previous.head?.map .sendHandOverToMe).toList)
  | _ => (r, [])

def takeOverRetry (r : SingletonManagerRuntime) : Outcome :=
  match r.state with
  | .wasOldest _ (some newOldest) => (r, [.sendTakeOverFromMe newOldest])
  | _ => (r, [])

def takeOverFromMe (r : SingletonManagerRuntime) (sender : UniqueAddress) : Outcome :=
  match r.state with
  | .becomingOldest previous started =>
    match previous with
    | oldest :: _ => (r, if oldest = sender then [.sendHandOverToMe sender] else [])
    | [] => (r.goto (.becomingOldest [sender] started), [.sendHandOverToMe sender])
  | .oldest _ => (r, [.sendHandOverToMe sender])
  | _ => (r, [])

def singletonTerminated (r : SingletonManagerRuntime) : Outcome :=
  match r.state with
  | .oldest _ => (r.goto (.oldest false), [])
  | .wasOldest _ newOldest => (r.goto (.wasOldest false newOldest), [])
  | .handingOver _ target => r.handoverDoneTo target
  | _ => (r, [])

/-! ## One input type -/

/-- Everything a running manager reacts to. -/
inductive Input
  | oldestChange (change : SingletonOldestChange)
  | markRemoved (node : UniqueAddress)
  | handOverToMe (sender : UniqueAddress)
  | handOverInProgress (sender : UniqueAddress)
  | handOverDone (sender : UniqueAddress)
  | takeOverFromMe (sender : UniqueAddress)
  | handOverRetry
  | takeOverRetry
  | singletonTerminated
  | stopManager
  deriving DecidableEq

def apply (r : SingletonManagerRuntime) : Input → Outcome
  | .oldestChange change => r.applyOldestChange change
  | .markRemoved node => r.markRemoved node
  | .handOverToMe sender => r.handOverToMe sender
  | .handOverInProgress sender => r.handOverInProgress sender
  | .handOverDone sender => r.handOverDone sender
  | .takeOverFromMe sender => r.takeOverFromMe sender
  | .handOverRetry => r.handOverRetry
  | .takeOverRetry => r.takeOverRetry
  | .singletonTerminated => r.singletonTerminated
  | .stopManager => r.stopManager

end SingletonManagerRuntime

/-! ## Reading a state -/

namespace SingletonManagerState

variable {s : SingletonManagerState}

/-- The prior owners a manager that does not own the singleton remembers. -/
def waitsFor : SingletonManagerState → Option (List UniqueAddress)
  | younger previous | becomingOldest previous _ => some previous
  | _ => none

/-- The manager is responsible for the singleton. -/
def owns : SingletonManagerState → Bool
  | oldest _ | wasOldest _ _ | handingOver _ _ => true
  | _ => false

/-- The manager has been told that it is the oldest. -/
def claims : SingletonManagerState → Bool
  | becomingOldest _ _ | oldest _ | wasOldest _ _ | handingOver _ _ => true
  | _ => false

/-- The singleton child is alive. -/
def running : SingletonManagerState → Bool
  | oldest r | wasOldest r _ | handingOver r _ => r
  | _ => false

def isYounger : SingletonManagerState → Bool
  | younger _ => true
  | _ => false

/-- The manager takes no further part. -/
def isDone : SingletonManagerState → Bool
  | ended | stopped => true
  | _ => false

lemma owns_of_running (h : s.running = true) : s.owns = true := by
  cases s <;> first | rfl | cases h

lemma claims_of_owns (h : s.owns = true) : s.claims = true := by
  cases s <;> first | rfl | cases h

lemma waitsFor_of_isDone (h : s.isDone = true) : s.waitsFor = none := by
  cases s <;> first | rfl | cases h

lemma waitsFor_of_owns (h : s.owns = true) : s.waitsFor = none := by
  cases s <;> first | rfl | cases h

lemma not_owns_of_isDone (h : s.isDone = true) : s.owns = false := by
  cases s <;> first | rfl | cases h

lemma not_claims_of_isDone (h : s.isDone = true) : s.claims = false := by
  cases s <;> first | rfl | cases h

lemma not_claims_of_isYounger (h : s.isYounger = true) : s.claims = false := by
  cases s <;> first | rfl | cases h

end SingletonManagerState

/-! ## What an input can do -/

namespace SingletonManagerRuntime

open SingletonManagerState

/-- A manager starts as an owner or waits for every other observed node. -/
lemma applyInitialObservation_cases (r : SingletonManagerRuntime) (o : SingletonOldestObservation) :
    (o.oldest = some r.selfNode ∧ r.applyInitialObservation o = r.gotoOldest) ∨
    ∃ s, r.applyInitialObservation o = (r.goto s, []) ∧
      s.waitsFor = some (withoutSelf o.olderOrSelf r.selfNode) ∧
      (s.claims = true → o.oldest = some r.selfNode) := by
  unfold applyInitialObservation
  split_ifs with h h'
  · exact .inl ⟨h.1, rfl⟩
  · exact .inr ⟨_, rfl, rfl, fun _ => h'⟩
  · exact .inr ⟨_, rfl, rfl, by simp [claims]⟩

/-- What an input can do to the ownership of a manager. -/
inductive Evolves (r : SingletonManagerRuntime) (i : Input) (r' : SingletonManagerRuntime) : Prop
  /-- nothing changes -/
  | same : r'.state = r.state → Evolves r i r'
  /-- the manager ends or stops -/
  | leaves : r'.state.isDone = true → Evolves r i r'
  /-- the manager keeps waiting; a prior owner is dropped only when it is removed -/
  | waits (l l' : List UniqueAddress) : r.state.waitsFor = some l → r'.state.waitsFor = some l' →
      (∀ n ∈ l, n ∈ l' ∨ i = .markRemoved n) → Evolves r i r'
  /-- every remembered prior owner has been removed -/
  | startsAlone (l : List UniqueAddress) : r.state.waitsFor = some l → r'.state = .oldest true →
      (∀ n ∈ l, n ∈ r'.removed) → Evolves r i r'
  /-- the first remembered prior owner reports that it is done -/
  | startsAfter (sender : UniqueAddress) (rest : List UniqueAddress) (started : Bool) :
      r.state = .becomingOldest (sender :: rest) started → i = .handOverDone sender →
      r'.state = .oldest true → Evolves r i r'
  /-- an owner stays one -/
  | owns : r.state.owns = true → r'.state.owns = true → Evolves r i r'
  /-- an owner without successor turns younger -/
  | resigns : r.state.owns = true → r'.state = .younger [] → Evolves r i r'

section Handlers

variable (r : SingletonManagerRuntime)

def removedAfter : Input → Finset UniqueAddress
  | .markRemoved node => insert node r.removed
  | .oldestChange .selfRemoved => insert r.selfNode r.removed
  | _ => r.removed

/-- What is known of a handled input: how the state evolves, that nothing but the state and the
removed nodes changes, and who reports that it is done. -/
structure Handled (i : Input) (out : Outcome) : Prop where
  evolves : Evolves r i out.1
  frame : ∃ s, out.1 = { r with removed := r.removedAfter i, state := s }
  done : ∀ target, .sendHandOverDone target ∈ out.2 → out.1.state.isDone = true ∨
    r.state.isYounger = true ∧ out.1 = r ∧ i = .handOverToMe target

variable {r} {i : Input}

lemma gotoHandingOver_handled (running : Bool) (target : Option UniqueAddress)
    (h : r.state.owns = true) :
    Handled r i ({ r with removed := r.removedAfter i }.gotoHandingOver running target) := by
  cases running <;> cases target
  · exact ⟨.resigns h rfl, ⟨_, rfl⟩, by simp [gotoHandingOver, handoverDoneTo]⟩
  · exact ⟨.leaves rfl, ⟨_, rfl⟩, fun _ _ => .inl rfl⟩
  all_goals exact ⟨.owns h rfl, ⟨_, rfl⟩, by simp [gotoHandingOver]⟩

lemma unchanged_handled {effects : List SingletonManagerEffect}
    (hi : r.removedAfter i = r.removed) (he : ∀ target, .sendHandOverDone target ∉ effects) :
    Handled r i (r, effects) :=
  ⟨.same rfl, ⟨r.state, by rw [hi]⟩, fun target h => absurd h (he target)⟩

lemma stopManager_handled : Handled r i ({ r with removed := r.removedAfter i }.stopManager) :=
  ⟨.leaves rfl, ⟨_, rfl⟩, by simp [stopManager]⟩

lemma markRemoved_handled (node : UniqueAddress) :
    Handled r (.markRemoved node) (r.markRemoved node) := by
  unfold markRemoved
  by_cases hself : node = r.selfNode
  · simp only [hself, if_true]
    exact stopManager_handled
  simp only [hself, if_false]
  have dropped : ∀ previous : List UniqueAddress, ∀ n ∈ previous,
      n ∈ previous.filter (· ≠ node) ∨ Input.markRemoved node = .markRemoved n := by
    intro previous n hn
    by_cases h : n = node
    · exact .inr (by rw [h])
    · exact .inl (by simp [hn, h])
  cases hs : r.state with
  | younger previous =>
    exact ⟨.waits _ _ (by rw [hs]; rfl) rfl (dropped previous), ⟨_, rfl⟩, by simp⟩
  | becomingOldest previous started =>
    dsimp only
    split_ifs with hall
    · refine ⟨.startsAlone previous (by rw [hs]; rfl) rfl fun n hn => ?_, ⟨_, rfl⟩,
        by simp [gotoOldest]⟩
      by_cases h : n = node
      · simp [gotoOldest, h]
      · simpa [gotoOldest] using List.all_eq_true.mp hall n (by simp [hn, h])
    · exact ⟨.waits _ _ (by rw [hs]; rfl) rfl (dropped previous), ⟨_, rfl⟩, by simp⟩
  | wasOldest running newOldest =>
    cases newOldest with
    | none => exact ⟨.same hs.symm, ⟨_, rfl⟩, by simp⟩
    | some o =>
      dsimp only
      split_ifs
      · rw [← hs]
        exact gotoHandingOver_handled _ _ (by rw [hs]; rfl)
      · exact ⟨.same hs.symm, ⟨_, rfl⟩, by simp⟩
  | _ => exact ⟨.same hs.symm, ⟨_, rfl⟩, by simp⟩

lemma oldestChangedWhileOldest_handled (running : Bool) (oldest : Option UniqueAddress)
    (h : r.state.owns = true) :
    Handled r (.oldestChange (.oldestChanged oldest)) (r.oldestChangedWhileOldest running oldest) := by
  unfold oldestChangedWhileOldest
  cases oldest with
  | none => exact ⟨.owns h rfl, ⟨_, rfl⟩, by simp⟩
  | some o =>
    dsimp only
    split_ifs
    · exact unchanged_handled rfl (by simp)
    · exact gotoHandingOver_handled _ _ h
    · exact ⟨.owns h rfl, ⟨_, rfl⟩, by simp⟩

lemma oldestChanged_handled (oldest : Option UniqueAddress) :
    Handled r (.oldestChange (.oldestChanged oldest)) (r.oldestChanged oldest) := by
  unfold oldestChanged
  cases hs : r.state with
  | younger previous =>
    dsimp only
    split_ifs with hself hall
    · exact ⟨.startsAlone previous (by rw [hs]; rfl) rfl
        fun n hn => by simpa [gotoOldest] using List.all_eq_true.mp hall n hn, ⟨_, rfl⟩,
        by simp [gotoOldest]⟩
    · cases previous with
      | nil => exact absurd rfl hall
      | cons first rest =>
        exact ⟨.waits _ (first :: rest) (by rw [hs]; rfl) rfl fun n hn => .inl hn, ⟨_, rfl⟩,
          by simp⟩
    · exact unchanged_handled rfl (by simp)
  | oldest running | wasOldest running newOldest =>
    exact oldestChangedWhileOldest_handled _ _ (by rw [hs]; rfl)
  | _ => exact unchanged_handled rfl (by simp)

variable (sender : UniqueAddress)

lemma handOverToMe_handled : Handled r (.handOverToMe sender) (r.handOverToMe sender) := by
  unfold handOverToMe
  cases hs : r.state with
  | younger l =>
    exact ⟨.same rfl, ⟨_, rfl⟩, fun target h => .inr ⟨by rw [hs]; rfl, rfl, by simp_all⟩⟩
  | oldest running =>
    exact gotoHandingOver_handled _ _ (by rw [hs]; rfl)
  | wasOldest running newOldest =>
    exact gotoHandingOver_handled _ _ (by rw [hs]; rfl)
  | handingOver running target =>
    cases target with
    | none => exact unchanged_handled rfl (by simp)
    | some t =>
      refine unchanged_handled rfl fun target => ?_
      split_ifs <;> simp
  | _ => exact unchanged_handled rfl (by simp)

lemma handOverDone_handled : Handled r (.handOverDone sender) (r.handOverDone sender) := by
  unfold handOverDone
  cases hs : r.state with
  | becomingOldest previous started =>
    cases previous with
    | nil => exact unchanged_handled rfl (by simp)
    | cons first rest =>
      dsimp only
      split_ifs with h
      · obtain rfl : first = sender := by simpa using h
        exact ⟨.startsAfter first rest started hs rfl rfl, ⟨_, rfl⟩, by simp [gotoOldest]⟩
      · exact unchanged_handled rfl (by simp)
  | _ => exact unchanged_handled rfl (by simp)

lemma takeOverFromMe_handled : Handled r (.takeOverFromMe sender) (r.takeOverFromMe sender) := by
  unfold takeOverFromMe
  cases hs : r.state with
  | becomingOldest previous started =>
    cases previous with
    | nil =>
      exact ⟨.waits [] [sender] (by rw [hs]; rfl) rfl fun n hn => by simp at hn, ⟨_, rfl⟩, by simp⟩
    | cons first rest =>
      refine unchanged_handled rfl fun target => ?_
      split_ifs <;> simp
  | _ => exact unchanged_handled rfl (by simp)

lemma singletonTerminated_handled :
    Handled r .singletonTerminated r.singletonTerminated := by
  unfold singletonTerminated
  cases hs : r.state with
  | oldest running | wasOldest running newOldest =>
    exact ⟨.owns (by rw [hs]; rfl) rfl, ⟨_, rfl⟩, by simp⟩
  | handingOver running target =>
    cases target with
    | none => exact ⟨.resigns (by rw [hs]; rfl) rfl, ⟨_, rfl⟩, by simp [handoverDoneTo]⟩
    | some t => exact ⟨.leaves rfl, ⟨_, rfl⟩, fun _ _ => .inl rfl⟩
  | _ => exact unchanged_handled rfl (by simp)

variable (r)

theorem apply_handled (i : Input) : Handled r i (r.apply i) := by
  cases i with
  | markRemoved node => exact markRemoved_handled node
  | oldestChange change =>
    cases change with
    | oldestChanged oldest => exact oldestChanged_handled oldest
    | selfRemoved =>
      have h : r.markRemoved r.selfNode =
          { r with removed := insert r.selfNode r.removed }.stopManager := by simp [markRemoved]
      simp only [apply, applyOldestChange, h]
      exact stopManager_handled
    | selfDowned => exact stopManager_handled
  | stopManager => exact stopManager_handled
  | handOverToMe sender => exact handOverToMe_handled sender
  | handOverInProgress sender =>
    simp only [apply, handOverInProgress]
    cases hs : r.state with
    | becomingOldest previous started =>
      dsimp only
      split_ifs
      · exact ⟨.waits previous previous (by rw [hs]; rfl) rfl fun n hn => .inl hn, ⟨_, rfl⟩, by simp⟩
      · exact unchanged_handled rfl (by simp)
    | _ => exact unchanged_handled rfl (by simp)
  | handOverDone sender => exact handOverDone_handled sender
  | takeOverFromMe sender => exact takeOverFromMe_handled sender
  | handOverRetry =>
    simp only [apply, handOverRetry]
    split <;> exact unchanged_handled rfl (by simp)
  | takeOverRetry =>
    simp only [apply, takeOverRetry]
    split <;> exact unchanged_handled rfl (by simp)
  | singletonTerminated => exact singletonTerminated_handled

@[simp] lemma apply_selfNode (i : Input) : (r.apply i).1.selfNode = r.selfNode := by
  obtain ⟨s, h⟩ := (r.apply_handled i).frame
  rw [h]

@[simp] lemma apply_removed (i : Input) : (r.apply i).1.removed = r.removedAfter i := by
  obtain ⟨s, h⟩ := (r.apply_handled i).frame
  rw [h]

variable {r}

lemma apply_isDone (h : r.state.isDone = true) (i : Input) : (r.apply i).1.state.isDone = true := by
  cases (r.apply_handled i).evolves with
  | same h' => rw [h']; exact h
  | leaves h' => exact h'
  | waits l l' h' | startsAlone l h' => rw [waitsFor_of_isDone h] at h'; cases h'
  | startsAfter sender rest started h' => rw [h'] at h; cases h
  | owns h' | resigns h' => rw [not_owns_of_isDone h] at h'; cases h'

/-- A younger manager moves on only when it is told that it is the oldest. -/
lemma apply_younger (hy : r.state.isYounger = true)
    (hi : i ≠ .oldestChange (.oldestChanged (some r.selfNode))) :
    (r.apply i).1.state.isYounger = true ∨ (r.apply i).1.state.isDone = true := by
  obtain ⟨l, h⟩ : ∃ l, r.state = .younger l := by
    cases hs : r.state with
    | younger l => exact ⟨l, rfl⟩
    | _ => rw [hs] at hy; cases hy
  cases i with
  | oldestChange change =>
    cases change with
    | oldestChanged oldest =>
      have ho : oldest ≠ some r.selfNode := fun ho => hi (by rw [ho])
      exact .inl (by simp [apply, applyOldestChange, oldestChanged, h, ho, isYounger])
    | selfRemoved =>
      exact .inr (by simp [apply, applyOldestChange, markRemoved, stopManager, isDone])
    | selfDowned => exact .inr rfl
  | markRemoved node =>
    by_cases hself : node = r.selfNode
    · exact .inr (by simp [apply, markRemoved, hself, stopManager, isDone])
    · exact .inl (by simp [apply, markRemoved, hself, h, isYounger])
  | stopManager => exact .inr rfl
  | _ => exact .inl (by
      simp [apply, handOverToMe, handOverInProgress, handOverDone, takeOverFromMe, handOverRetry,
        takeOverRetry, singletonTerminated, h, isYounger])

lemma apply_ne_start (h : r.state ≠ .start) (i : Input) : (r.apply i).1.state ≠ .start := by
  intro h'
  cases (r.apply_handled i).evolves with
  | same hs => exact h (hs ▸ h')
  | leaves hs => rw [h'] at hs; cases hs
  | waits l l' _ hl' => rw [h'] at hl'; cases hl'
  | startsAlone l _ hs | startsAfter sender rest started _ _ hs | owns _ hs | resigns _ hs =>
    rw [h'] at hs; cases hs

/-- Only a manager that is told that it is the oldest begins to claim the singleton. -/
lemma claims_of_apply (h : (r.apply i).1.state.claims = true)
    (hs : r.state ≠ .start) (hi : i ≠ .oldestChange (.oldestChanged (some r.selfNode))) :
    r.state.claims = true := by
  cases hr : r.state with
  | start => exact absurd hr hs
  | younger l =>
    rcases apply_younger (by rw [hr]; rfl) hi with h' | h'
    · rw [not_claims_of_isYounger h'] at h; cases h
    · rw [not_claims_of_isDone h'] at h; cases h
  | ended | stopped => rw [not_claims_of_isDone (apply_isDone (by rw [hr]; rfl) i)] at h; cases h
  | _ => rfl

end Handlers

end SingletonManagerRuntime

end Kairo.Singleton
