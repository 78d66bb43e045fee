import Kairo.Lib.Machine
import Mathlib.Data.Finset.Basic

/-!
# Stopping a tree of actors

Actors are named by their paths, the last segment first; the empty path is the guardian's.  An actor
that stops or restarts asks its children to stop and waits for them one by one.  A worker that waits
runs other queued activations on top of the waiting one, so that a worker is a stack of activations,
the running one first.  What an activation does besides is left out: it spawns children, is restarted,
and ends.
-/

namespace Kairo.Actor

open Kairo.Lib

abbrev Path (N : Type*) := List N

inductive Work (N : Type*)
  | running
  /-- The activation waits for the first of these children, to restart or to terminate its actor. -/
  | waiting (pending : List (Path N)) (restarts : Bool)
  deriving DecidableEq

structure Activation (N : Type*) where
  actor : Path N
  work : Work N
  /-- The time when a worker took it. -/
  since : ℕ
  deriving DecidableEq

structure StopTree (N : Type*) where
  registered : List (Path N)
  stopped : Finset (Path N)
  terminated : Finset (Path N)
  scheduled : Finset (Path N)
  queue : List (Path N)
  workers : List (List (Activation N))
  clock : ℕ

namespace StopTree

variable {N : Type*} [DecidableEq N] (w : StopTree N)

inductive Action (N : Type*)
  | spawn (name : N) (parent : Path N)
  | tell (a : Path N)
  | requestStop (a : Path N)
  | take (k : ℕ)
  | restart (k : ℕ) (preserved : List (Path N))
  | finish (k : ℕ)
  | waitForStop (k : ℕ)
  | goOn (k : ℕ)

def schedule (a : Path N) : StopTree N :=
  if a ∈ w.scheduled ∨ a ∈ w.terminated then w
  else { w with scheduled := insert a w.scheduled, queue := w.queue ++ [a] }

def requestStop (a : Path N) : StopTree N :=
  if a ∈ w.stopped then w else { w with stopped := insert a w.stopped }.schedule a

def childHandles (a : Path N) : List (Path N) :=
  w.registered.filter fun c => c ≠ [] ∧ c.tail = a

/-- The first loop of `stop_child_handles_until_deadline`; the activation waits afterwards. -/
def stopChildren (k : ℕ) (f : Activation N) (rest : List (Activation N)) (children : List (Path N))
    (restarts : Bool) : StopTree N :=
  let asked := children.foldl requestStop w
  { asked with workers := w.workers.set k ({ f with work := .waiting children restarts } :: rest) }

def release (k : ℕ) (f : Activation N) (rest : List (Activation N)) : StopTree N :=
  { w with scheduled := w.scheduled.erase f.actor, workers := w.workers.set k rest }

/-- A worker takes tasks when it is idle, and in between while it waits. -/
def takes (stack : List (Activation N)) : Bool :=
  match stack with
  | [] => true
  | ⟨_, .waiting (c :: _) _, _⟩ :: _ => c ∉ w.terminated
  | _ => false

def step : Action N → Option (StopTree N)
  | .spawn name parent =>
    if (parent = [] ∨ parent ∈ w.registered) ∧ name :: parent ∉ w.registered ∧
        name :: parent ∉ w.terminated then
      some ({ w with registered := w.registered ++ [name :: parent] }.schedule (name :: parent))
    else none
  | .tell a => if a ∈ w.registered then some (w.schedule a) else none
  | .requestStop a => if a ∈ w.registered then some (w.requestStop a) else none
  | .take k => (w.workers[k]?).bind fun stack =>
    match w.queue with
    | [] => none
    | a :: queue =>
      if w.takes stack then
        some { w with
          queue
          workers := w.workers.set k (⟨a, .running, w.clock⟩ :: stack)
          clock := w.clock + 1 }
      else none
  | .restart k preserved => (w.workers[k]?).bind fun
    | f :: rest =>
      if f.work = .running then
        some (w.stopChildren k f rest ((w.childHandles f.actor).filter (· ∉ preserved)) true)
      else none
    | [] => none
  | .finish k => (w.workers[k]?).bind fun
    | f :: rest =>
      if f.work = .running then
        if f.actor ∈ w.stopped ∧ f.actor ∉ w.terminated then
          some (w.stopChildren k f rest (w.childHandles f.actor) false)
        else some (w.release k f rest)
      else none
    | [] => none
  | .waitForStop k => (w.workers[k]?).bind fun
    | f :: rest =>
      match f.work with
      | .waiting (c :: pending) restarts =>
        if c ∈ w.terminated then
          some { w with
            workers := w.workers.set k ({ f with work := .waiting pending restarts } :: rest) }
        else none
      | _ => none
    | [] => none
  | .goOn k => (w.workers[k]?).bind fun
    | f :: rest =>
      match f.work with
      | .waiting [] true =>
        some { w with workers := w.workers.set k ({ f with work := .running } :: rest) }
      | .waiting [] false =>
        some { w.release k f rest with
          registered := w.registered.erase f.actor
          terminated := insert f.actor w.terminated }
      | _ => none
    | [] => none

def start (workers : ℕ) : StopTree N := ⟨[], ∅, ∅, ∅, [], List.replicate workers [], 0⟩

def machine (workers : ℕ) : Machine (StopTree N) (Action N) where
  init w := w = start workers
  step w := w.step

/-! ## Who waits for whom -/

/-- An activation waits for the actor of another one to terminate. -/
def Waits (f g : Activation N) : Prop :=
  (∃ stack ∈ w.workers, f ∈ stack) ∧ (∃ stack ∈ w.workers, g ∈ stack) ∧
    ∃ pending restarts, f.work = .waiting (g.actor :: pending) restarts

/-- An activation is suspended until another one, higher on its stack, returns. -/
def Suspends (f g : Activation N) : Prop := ∃ stack ∈ w.workers, [g, f].Sublist stack

/-- Some stack waits for an actor whose own activation is suspended lower on it. -/
def WaitsForItself : Prop :=
  ∃ stack ∈ w.workers, ∃ f g : Activation N, [f, g].Sublist stack ∧
    ∃ pending restarts, f.work = .waiting (g.actor :: pending) restarts

end StopTree

end Kairo.Actor
