import Kairo.Lib.Machine
import Mathlib.Data.Finset.Basic

/-!
# Death watch

The registry of death watches and the way of a termination notice into the mailbox of a watcher.
Watch state is split over the registrations and two sets of queued notices with locks of their own;
each section under one of these locks is a step, and `unwatch` and `remove_watcher`, which hold the
lock of the registrations throughout, are one.  `notify` takes the registrations of a subject first,
and then marks and enqueues the notices one by one.  A notice of `watch` goes through the user lane and
comes back as a gated signal, one of `watch_with` is a message of the user lane, and one of
`watch_path` is a signal of the system lane.
-/

namespace Kairo.Actor

open Kairo.Lib Function

inductive WatchFlavor
  | watch
  | watchWith
  | watchPath
  deriving DecidableEq

namespace WatchFlavor

/-- The registration has the kind `Custom`; the others have the kind `Signal`. -/
def isCustom : WatchFlavor → Bool
  | watchWith => true
  | watch | watchPath => false

end WatchFlavor

variable {P : Type*}

structure Registration (P : Type*) where
  subject : P
  watcher : P
  flavor : WatchFlavor
  deriving DecidableEq

namespace Registration

def pair (r : Registration P) : P × P := (r.subject, r.watcher)

end Registration

inductive UserItem (P : Type*)
  | message
  /-- A closure that delivers a notice if it is still queued. -/
  | notice (subject : P) (custom : Bool)
  deriving DecidableEq

inductive SystemItem (P : Type*)
  | other
  | gatedSignal (subject : P)
  | signal (subject : P)
  deriving DecidableEq

/-- The parts of an actor that death watch uses. -/
structure WatchActor (P : Type*) where
  userCapacity : Option ℕ
  system : List (SystemItem P)
  user : List (UserItem P)
  /-- The subject of a notice that the actor has taken and is about to handle. -/
  receiving : Option P
  stopped : Bool
  closed : Bool
  /-- Its own watches are removed. -/
  detached : Bool
  terminated : Bool
  deriving DecidableEq

namespace WatchActor

def isFull (x : WatchActor P) : Bool := x.userCapacity.any fun capacity => capacity ≤ x.user.length

end WatchActor

/-- Where a notification of one registration is. -/
inductive NotifyStage
  | taken
  | marked
  | rejected
  deriving DecidableEq

/-- Where a call of a watch function is. -/
inductive WatchStage
  | checkOwn
  | checkOther
  | register
  /-- Registered; the termination of the subject is looked at again. -/
  | recheck
  deriving DecidableEq

structure DeathWatch (P : Type*) where
  actors : P → WatchActor P
  watchers : List (Registration P)
  queuedSignals : Finset (P × P)
  queuedCustoms : Finset (P × P)
  notifying : List (Registration P × NotifyStage)
  watching : List (Registration P × WatchStage)
  /-- Terminated subjects that are about to notify. -/
  terminating : List P
  /-- The notices in the current watch period of a subject and a watcher. -/
  periods : P × P → Option ℕ
  /-- Notices outside a period, or after the first one in it. -/
  unexpected : List (P × P)
  /-- Watches by `watch` that have returned and whose notice has not been processed. -/
  expecting : Finset (P × P)

namespace DeathWatch

variable [DecidableEq P] (w : DeathWatch P)

inductive Action (P : Type*)
  | tell (a : P)
  | tellSystem (a : P)
  | watch (subject watcher : P) (flavor : WatchFlavor)
  | stepWatch (i : ℕ)
  | unwatch (subject watcher : P)
  | stop (a : P)
  | close (a : P)
  | removeWatcher (a : P)
  | terminate (a : P)
  | notify (i : ℕ)
  | notifyMatching (predicate : P → Bool)
  | stepNotify (i : ℕ)
  | process (a : P)

/-- The set of queued notices of a kind. -/
def queued (custom : Bool) : Finset (P × P) := if custom then w.queuedCustoms else w.queuedSignals

def setQueued (custom : Bool) (s : Finset (P × P)) : DeathWatch P :=
  if custom then { w with queuedCustoms := s } else { w with queuedSignals := s }

def modify (a : P) (f : WatchActor P → WatchActor P) : DeathWatch P :=
  { w with actors := Function.update w.actors a (f (w.actors a)) }

@[simp]
lemma modify_actors_self (a : P) (f : WatchActor P → WatchActor P) :
    (w.modify a f).actors a = f (w.actors a) :=
  update_self ..

lemma modify_actors_of_ne {a b : P} (f : WatchActor P → WatchActor P) (h : b ≠ a) :
    (w.modify a f).actors b = w.actors b :=
  update_of_ne h ..

lemma modify_modify (a : P) (f g : WatchActor P → WatchActor P) :
    ((w.modify a f).modify a g).actors = update w.actors a (g (f (w.actors a))) := by
  rw [modify, modify_actors_self, modify]
  exact update_idem ..

/-- The first section of `notify` and `notify_matching`. -/
def takeRegistrations (predicate : P → Bool) : DeathWatch P :=
  { w with
    watchers := w.watchers.filter (!predicate ·.subject)
    notifying := w.notifying ++ (w.watchers.filter (predicate ·.subject)).map fun r => (r, .taken) }

def handle (subject watcher : P) : DeathWatch P :=
  { w with
    periods := Function.update w.periods (subject, watcher)
      ((w.periods (subject, watcher)).map (· + 1))
    unexpected :=
      if w.periods (subject, watcher) = some 0 then w.unexpected
      else w.unexpected ++ [(subject, watcher)] }

/-- The registry accepts a watch, which starts a period; a `watch_path` returns, the others look at
the subject again. -/
def acceptWatch (i : ℕ) (r : Registration P) : DeathWatch P :=
  { w with
    watching :=
      if r.flavor = .watchPath then w.watching.eraseIdx i else w.watching.set i (r, .recheck)
    periods := Function.update w.periods r.pair (some 0)
    expecting := if r.flavor = .watch then insert r.pair w.expecting else w.expecting }

/-- One step of a call of `watch`, `watch_with` or `watch_path`. -/
def watchStep (i : ℕ) (r : Registration P) : WatchStage → DeathWatch P
  | .checkOwn =>
    if r.pair ∈ w.queued r.flavor.isCustom then w.acceptWatch i r
    else { w with watching := w.watching.set i (r, .checkOther) }
  | .checkOther =>
    if r.pair ∈ w.queued (!r.flavor.isCustom) then { w with watching := w.watching.eraseIdx i }
    else { w with watching := w.watching.set i (r, .register) }
  | .register =>
    match w.watchers.find? (·.pair = r.pair) with
    | some existing =>
      if !existing.flavor.isCustom && !r.flavor.isCustom then w.acceptWatch i r
      else { w with watching := w.watching.eraseIdx i }
    | none => { w.acceptWatch i r with watchers := w.watchers ++ [r] }
  | .recheck =>
    let done := { w with watching := w.watching.eraseIdx i }
    if (w.actors r.subject).terminated then done.takeRegistrations (· = r.subject) else done

/-- The notice of a registration is handed to the mailbox of the watcher. -/
def enqueueNotice (i : ℕ) (r : Registration P) : DeathWatch P :=
  let watcher := w.actors r.watcher
  let done := { w with notifying := w.notifying.eraseIdx i }
  match r.flavor with
  | .watchPath =>
    if watcher.stopped || watcher.closed then done
    else done.modify r.watcher fun x => { x with system := x.system ++ [.signal r.subject] }
  | _ =>
    if r.flavor.isCustom && watcher.stopped then
      done.setQueued true (w.queuedCustoms.erase r.pair)
    else if watcher.closed || watcher.isFull then
      { w with notifying := w.notifying.set i (r, .rejected) }
    else done.modify r.watcher fun x =>
      { x with user := x.user ++ [.notice r.subject r.flavor.isCustom] }

/-- One step of a notification after its registration was taken. -/
def notifyStep (i : ℕ) (r : Registration P) : NotifyStage → DeathWatch P
  | .taken =>
    { w with notifying := w.notifying.set i (r, .marked) }.setQueued r.flavor.isCustom
      (insert r.pair (w.queued r.flavor.isCustom))
  | .marked => w.enqueueNotice i r
  | .rejected =>
    { w with notifying := w.notifying.eraseIdx i }.setQueued r.flavor.isCustom
      ((w.queued r.flavor.isCustom).erase r.pair)

/-- The system lane of a running actor. -/
def processSystem (a : P) : SystemItem P → DeathWatch P
  | .other => w
  | .gatedSignal subject => { w with expecting := w.expecting.erase (subject, a) }.handle subject a
  | .signal subject =>
    if (subject, a) ∈ w.queuedSignals then
      { w with
        queuedSignals := w.queuedSignals.erase (subject, a)
        expecting := w.expecting.erase (subject, a) }.modify a fun x =>
        { x with receiving := some subject }
    else w

/-- The user lane of a running actor. -/
def processUser (a : P) : UserItem P → DeathWatch P
  | .message => w
  | .notice subject false =>
    if (subject, a) ∈ w.queuedSignals then
      { w with queuedSignals := w.queuedSignals.erase (subject, a) }.modify a fun x =>
        { x with system := x.system ++ [SystemItem.gatedSignal subject] }
    else w
  | .notice subject true =>
    if (subject, a) ∈ w.queuedCustoms then
      { w with queuedCustoms := w.queuedCustoms.erase (subject, a) }.modify a fun x =>
        { x with receiving := some subject }
    else w

/-- A running actor goes on with the notice it has taken, its system lane or its user lane. -/
def processNext (a : P) : DeathWatch P :=
  match (w.actors a).receiving, (w.actors a).system, (w.actors a).user with
  | some subject, _, _ => (w.modify a fun x => { x with receiving := none }).handle subject a
  | none, item :: system, _ => (w.modify a fun x => { x with system }).processSystem a item
  | none, [], item :: user => (w.modify a fun x => { x with user }).processUser a item
  | none, [], [] => w

def step : Action P → Option (DeathWatch P)
  | .tell a =>
    if (w.actors a).closed || (w.actors a).isFull then some w
    else some (w.modify a fun x => { x with user := x.user ++ [.message] })
  | .tellSystem a =>
    if (w.actors a).closed then some w
    else some (w.modify a fun x => { x with system := x.system ++ [.other] })
  | .watch subject watcher flavor =>
    if subject = watcher then none
    else some { w with
      watching := w.watching ++ [(⟨subject, watcher, flavor⟩, .checkOwn)] }
  | .stepWatch i => (w.watching[i]?).map fun (r, stage) => w.watchStep i r stage
  | .unwatch subject watcher => some { w with
      watchers := w.watchers.filter (·.pair ≠ (subject, watcher))
      queuedSignals := w.queuedSignals.erase (subject, watcher)
      queuedCustoms := w.queuedCustoms.erase (subject, watcher)
      periods := Function.update w.periods (subject, watcher) none
      expecting := w.expecting.erase (subject, watcher) }
  | .stop a => some (w.modify a fun x => { x with stopped := true })
  | .close a =>
    if (w.actors a).stopped then
      some (w.modify a fun x =>
        { x with system := [], user := [], receiving := none, closed := true })
    else none
  | .removeWatcher a =>
    if (w.actors a).closed then
      some { w.modify a fun x => { x with detached := true } with
        watchers := w.watchers.filter (·.watcher ≠ a)
        queuedSignals := w.queuedSignals.filter (·.2 ≠ a)
        queuedCustoms := w.queuedCustoms.filter (·.2 ≠ a) }
    else none
  | .terminate a =>
    if (w.actors a).detached && !(w.actors a).terminated then
      some { w.modify a fun x => { x with terminated := true } with
        terminating := w.terminating ++ [a] }
    else none
  | .notify i => (w.terminating[i]?).map fun subject =>
    { w with terminating := w.terminating.eraseIdx i }.takeRegistrations (· = subject)
  | .notifyMatching predicate => some (w.takeRegistrations predicate)
  | .stepNotify i => (w.notifying[i]?).map fun (r, stage) => w.notifyStep i r stage
  | .process a => if (w.actors a).stopped then none else some (w.processNext a)

/-- All actors are running with empty mailboxes. -/
def start (userCapacity : P → Option ℕ) : DeathWatch P where
  actors a := ⟨userCapacity a, [], [], none, false, false, false, false⟩
  watchers := []
  queuedSignals := ∅
  queuedCustoms := ∅
  notifying := []
  watching := []
  terminating := []
  periods _ := none
  unexpected := []
  expecting := ∅

def machine (userCapacity : P → Option ℕ) : Machine (DeathWatch P) (Action P) where
  init w := w = start userCapacity
  step w := w.step

end DeathWatch

end Kairo.Actor
