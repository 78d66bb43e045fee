import Mathlib.Data.List.Basic

/-!
# The stash of an actor

A stash keeps messages aside up to its capacity.  `unstash` and `unstashAll` put the oldest of them in
front of the messages that wait in the mailbox: what one call returns keeps its order, but a later call
goes in front of what an earlier one returned.  The actor is not stopping and its mailbox not closed.
-/

namespace Kairo.Actor

open List

variable {M : Type*}

inductive StashError where
  | stashDisabled
  | stashFull (capacity : ℕ)

structure StashState (M : Type*) where
  capacity : Option ℕ
  messages : List M

namespace StashState

def new (capacity : Option ℕ) : StashState M := ⟨capacity, []⟩

def stash (s : StashState M) (message : M) : Except StashError (StashState M) :=
  match s.capacity with
  | none => .error .stashDisabled
  | some capacity =>
    if capacity ≤ s.messages.length then .error (.stashFull capacity)
    else .ok { s with messages := s.messages ++ [message] }

def take (s : StashState M) (limit : ℕ) : List M × StashState M :=
  let count := min limit s.messages.length
  (s.messages.take count, { s with messages := s.messages.drop count })

def takeAll (s : StashState M) : List M × StashState M := (s.messages, { s with messages := [] })

end StashState

/-- An actor with its stash and the waiting messages of its mailbox, and what was told to it, stashed,
unstashed and received so far. -/
structure StashRun (M : Type*) where
  stash : StashState M
  user : List M
  told : List M
  stashed : List M
  unstashed : List M
  received : List M

/-- What happens to the actor; it makes the calls while it processes what it has received. -/
inductive StashAction (M : Type*) where
  | tell (message : M)
  | receive
  | stash (message : M)
  | unstash (limit : ℕ)
  | unstashAll

namespace StashRun

def init (capacity : Option ℕ) : StashRun M := ⟨.new capacity, [], [], [], [], []⟩

/-- Pushes the messages to the front of the mailbox, the last one first. -/
def prependStashedMessages (s : StashRun M) (taken : List M × StashState M) : StashRun M :=
  { s with
    stash := taken.2
    user := taken.1.foldr cons s.user
    unstashed := s.unstashed ++ taken.1 }

def step (s : StashRun M) : StashAction M → StashRun M
  | .tell message => { s with user := s.user ++ [message], told := s.told ++ [message] }
  | .receive =>
    match s.user with
    | [] => s
    | message :: user => { s with user := user, received := s.received ++ [message] }
  | .stash message =>
    match s.stash.stash message with
    | .error _ => s
    | .ok stash => { s with stash := stash, stashed := s.stashed ++ [message] }
  | .unstash limit => s.prependStashedMessages (s.stash.take limit)
  | .unstashAll => s.prependStashedMessages s.stash.takeAll

def run (s : StashRun M) (actions : List (StashAction M)) : StashRun M := actions.foldl step s

/-! ## Where the messages are -/

structure Accounted (capacity : Option ℕ) (s : StashRun M) : Prop where
  configured : s.stash.capacity = capacity
  bounded : s.stash.messages.length ≤ capacity.getD 0
  stashed : s.stashed = s.unstashed ++ s.stash.messages
  received : (s.received ++ s.user).Perm (s.told ++ s.unstashed)

variable {capacity : Option ℕ} {s : StashRun M}

lemma Accounted.prepend (h : Accounted capacity s) {taken rest : List M}
    (ht : s.stash.messages = taken ++ rest) :
    Accounted capacity (s.prependStashedMessages (taken, { s.stash with messages := rest })) := by
  have hlength := h.bounded
  simp only [ht, length_append] at hlength
  refine ⟨h.configured, ?_, ?_, ?_⟩
  · simp only [prependStashedMessages]
    omega
  · simp [prependStashedMessages, h.stashed, ht]
  · have hfront : (s.received ++ (taken ++ s.user)).Perm ((s.received ++ s.user) ++ taken) := by
      simpa using perm_append_comm.append_left s.received
    simpa [prependStashedMessages] using hfront.trans (h.received.append_right taken)

lemma Accounted.step (h : Accounted capacity s) (action : StashAction M) :
    Accounted capacity (s.step action) := by
  cases action with
  | tell message =>
    have hswap := (perm_append_singleton message s.unstashed).append_left s.told
    refine ⟨h.configured, h.bounded, h.stashed, ?_⟩
    simpa [StashRun.step] using (h.received.append_right [message]).trans (by simpa using hswap)
  | receive =>
    have hreceived := h.received
    rw [StashRun.step]
    split
    · exact h
    · next message user hu =>
      rw [hu] at hreceived
      exact ⟨h.configured, h.bounded, h.stashed, by simpa using hreceived⟩
  | stash message =>
    rw [StashRun.step, StashState.stash]
    cases hc : s.stash.capacity with
    | none => exact h
    | some n =>
      obtain rfl : some n = capacity := hc.symm.trans h.configured
      by_cases hn : n ≤ s.stash.messages.length
      · simpa [hn] using h
      · simp only [hn, if_false]
        refine ⟨rfl, ?_, by simp [h.stashed], h.received⟩
        simp only [length_append, length_singleton, Option.getD_some]
        omega
  | unstash limit => exact h.prepend (take_append_drop _ _).symm
  | unstashAll => exact h.prepend (append_nil _).symm

lemma accounted_run (h : Accounted capacity s) (actions : List (StashAction M)) :
    Accounted capacity (s.run actions) := by
  induction actions generalizing s with
  | nil => exact h
  | cons action actions ih => exact ih (h.step action)

/-! ## What is received next -/

/-- From `s` to `t` what was received stays, and what waited is received in its order or still waits
so. -/
def Serves (s t : StashRun M) : Prop :=
  s.received <+: t.received ∧ s.received ++ s.user <+ t.received ++ t.user

lemma serves_step (s : StashRun M) (action : StashAction M) : Serves s (s.step action) := by
  cases action with
  | tell message => simp [Serves, step]
  | receive =>
    rw [step]
    split
    · simp [Serves]
    · next message user hu => simp [Serves, hu]
  | stash message =>
    rw [step]
    split <;> simp [Serves]
  | unstash limit | unstashAll => simp [Serves, step, prependStashedMessages]

lemma serves_run (s : StashRun M) (actions : List (StashAction M)) : Serves s (s.run actions) := by
  induction actions generalizing s with
  | nil => simp [Serves, run]
  | cons action actions ih =>
    obtain ⟨hfirst, hwaiting⟩ := serves_step s action
    obtain ⟨hrest, hnext⟩ := ih (s.step action)
    exact ⟨hfirst.trans hrest, hwaiting.trans hnext⟩

/-- The call returns the oldest messages `taken`: they come in their order before what waited at the
call, whatever happens `after` it. -/
def Returns (s : StashRun M) (call : StashAction M) (taken : List M) (after : List (StashAction M)) :
    Prop :=
  s.stash.messages = taken ++ (s.step call).stash.messages ∧
    Serves { s with user := taken ++ s.user } ((s.step call).run after)

/-- **The stash of an actor**: it never exceeds its capacity, no message is lost or received twice, and
what one call returns is received in the order in which it was stashed and first. -/
theorem stash_order (capacity : Option ℕ) (before after : List (StashAction M)) :
    let s := (init capacity).run before
    s.stash.messages.length ≤ capacity.getD 0 ∧ s.stashed = s.unstashed ++ s.stash.messages ∧
      (s.received ++ s.user).Perm (s.told ++ s.unstashed) ∧
      (∀ limit, s.Returns (.unstash limit) (s.stash.take limit).1 after) ∧
      s.Returns .unstashAll s.stash.takeAll.1 after := by
  intro s
  have hinit : Accounted capacity (init capacity : StashRun M) := ⟨rfl, Nat.zero_le _, rfl, .refl _⟩
  have h : Accounted capacity s := accounted_run hinit before
  refine ⟨h.bounded, h.stashed, h.received, fun limit => ⟨(take_append_drop _ _).symm, ?_⟩,
    (append_nil _).symm, ?_⟩
  · have hsome := serves_run (s.step (.unstash limit)) after
    simpa [Serves, step, prependStashedMessages] using hsome
  · have hall := serves_run (s.step .unstashAll) after
    simpa [Serves, step, prependStashedMessages] using hall

/-- Two calls in one turn return the second message before the first. -/
theorem unstash_twice_reverses :
    let s := (init (some 2)).run [.tell 1, .tell 2, .tell 3, .receive, .stash 1, .receive, .stash 2,
      .receive, .unstash 1, .unstash 1, .receive, .receive]
    s.stashed = [1, 2] ∧ s.unstashed = [1, 2] ∧ s.received = [1, 2, 3, 2, 1] := by
  decide

end StashRun

end Kairo.Actor
