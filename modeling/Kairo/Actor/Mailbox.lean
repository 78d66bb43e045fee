import Kairo.Actor.Supervision

/-!
# Mailboxes

The two lanes of a mailbox.  An enqueue says whether its caller has to schedule the actor, which it has
when it finds the mailbox empty and the scheduler of the actor set.
-/

namespace Kairo.Actor

structure Mailbox where
  userCapacity : Option ℕ
  system : List Dequeued
  user : List Dequeued
  closed : Bool
  /-- The scheduler of the actor is set. -/
  scheduler : Bool
  deriving DecidableEq

inductive MailboxEnqueueError
  | closed
  | full
  deriving DecidableEq

namespace Mailbox

variable (m : Mailbox)

def new (userCapacity : Option ℕ) : Mailbox := ⟨userCapacity, [], [], false, false⟩

def isFull : Bool := m.userCapacity.any fun capacity => capacity ≤ m.user.length

def hasMessages : Bool := !m.system.isEmpty || !m.user.isEmpty

def schedulerForNewMessage : Bool := !m.hasMessages && m.scheduler

/-- The user lane; the second value says whether to schedule the actor. -/
def enqueueEnvelope (d : Dequeued) : Except MailboxEnqueueError (Mailbox × Bool) :=
  if m.closed then .error .closed
  else if m.isFull then .error .full
  else .ok ({ m with user := m.user ++ [d] }, m.schedulerForNewMessage)

def enqueueUser := m.enqueueEnvelope .message

def enqueueTimer (accepted : Bool) := m.enqueueEnvelope (.timer accepted)

def enqueueReceiveTimeout (accepted : Bool) := m.enqueueEnvelope (.receiveTimeout accepted)

def enqueueAdapted (given : Bool) := m.enqueueEnvelope (.adapted given)

/-- Messages that return from the stash, whatever the capacity. -/
def prependUserMessages (count : ℕ) : Except MailboxEnqueueError (Mailbox × Bool) :=
  if m.closed then .error .closed
  else .ok ({ m with user := List.replicate count .message ++ m.user },
    count ≠ 0 && m.schedulerForNewMessage)

def enqueueSystem (d : Dequeued) : Mailbox × Bool :=
  if m.closed then (m, false)
  else ({ m with system := m.system ++ [d] }, m.schedulerForNewMessage)

def tryDequeue : Option (Dequeued × Mailbox) :=
  match m.system, m.user with
  | d :: system, _ => some (d, { m with system })
  | [], d :: user => some (d, { m with user })
  | [], [] => if m.closed then some (.closed, m) else none

def tryDequeueSystem : Option (Dequeued × Mailbox) :=
  match m.system with
  | d :: system => some (d, { m with system })
  | [] => none

def closeAndDrainUser : Mailbox × ℕ :=
  ({ m with closed := true, system := [], user := [] }, m.user.countP (· = .message))

def setScheduler : Mailbox := { m with scheduler := true }

def clearScheduler : Mailbox := { m with scheduler := false }

variable {m} {m' : Mailbox} {d : Dequeued} {schedule : Bool}

/-- A new message leaves the scheduler as it is, and its sender schedules the actor if the mailbox was
empty. -/
structure Grows (m m' : Mailbox) (schedule : Bool) : Prop where
  scheduler : m'.scheduler = m.scheduler
  closed : m'.closed = m.closed
  keeps : m.hasMessages = true → m'.hasMessages = true
  wakes : m.scheduler = true → m'.hasMessages = true → m.hasMessages = true ∨ schedule = true

lemma schedulerForNewMessage_eq (hs : m.scheduler = true) (hm : m.hasMessages = false) :
    m.schedulerForNewMessage = true := by
  rw [schedulerForNewMessage, hs, hm]
  rfl

lemma grows_refl : Grows m m false := ⟨rfl, rfl, fun h => h, fun _ h => .inl h⟩

lemma grows_of_schedulerForNewMessage (hs : m'.scheduler = m.scheduler)
    (hc : m'.closed = m.closed) (hm : m'.hasMessages = true) :
    Grows m m' m.schedulerForNewMessage := by
  refine ⟨hs, hc, fun _ => hm, fun h _ => ?_⟩
  cases hm : m.hasMessages with
  | true => exact .inl rfl
  | false => exact .inr (schedulerForNewMessage_eq h hm)

lemma grows_enqueueEnvelope (h : m.enqueueEnvelope d = .ok (m', schedule)) :
    Grows m m' schedule := by
  unfold enqueueEnvelope at h
  split_ifs at h
  obtain ⟨rfl, rfl⟩ := Prod.mk.inj (Except.ok.inj h)
  exact grows_of_schedulerForNewMessage rfl rfl (by simp [hasMessages])

lemma grows_prependUserMessages {count : ℕ} (h : m.prependUserMessages count = .ok (m', schedule)) :
    Grows m m' schedule := by
  unfold prependUserMessages at h
  split_ifs at h
  obtain ⟨rfl, rfl⟩ := Prod.mk.inj (Except.ok.inj h)
  cases count with
  | zero => exact ⟨rfl, rfl, fun h => h, fun _ h => .inl h⟩
  | succ n =>
    exact grows_of_schedulerForNewMessage rfl rfl (by simp [hasMessages, List.replicate_succ])

lemma grows_enqueueSystem (d : Dequeued) :
    Grows m (m.enqueueSystem d).1 (m.enqueueSystem d).2 := by
  unfold enqueueSystem
  split_ifs
  · exact grows_refl
  · exact grows_of_schedulerForNewMessage rfl rfl (by simp [hasMessages])

lemma hasMessages_enqueueSystem (d : Dequeued) (hc : m.closed = false) :
    (m.enqueueSystem d).1.hasMessages = true := by
  unfold enqueueSystem
  rw [hc]
  simp [hasMessages]

lemma tryDequeue_eq_some (h : m.tryDequeue = some (d, m')) :
    m'.scheduler = m.scheduler ∧ m'.closed = m.closed := by
  unfold tryDequeue at h
  split at h
  · obtain ⟨-, rfl⟩ := Prod.mk.inj (Option.some.inj h); exact ⟨rfl, rfl⟩
  · obtain ⟨-, rfl⟩ := Prod.mk.inj (Option.some.inj h); exact ⟨rfl, rfl⟩
  · split_ifs at h
    obtain ⟨-, rfl⟩ := Prod.mk.inj (Option.some.inj h)
    exact ⟨rfl, rfl⟩

lemma tryDequeueSystem_eq_some (h : m.tryDequeueSystem = some (d, m')) :
    m'.scheduler = m.scheduler ∧ m'.closed = m.closed := by
  unfold tryDequeueSystem at h
  split at h
  · obtain ⟨-, rfl⟩ := Prod.mk.inj (Option.some.inj h); exact ⟨rfl, rfl⟩
  · cases h

end Mailbox

end Kairo.Actor
