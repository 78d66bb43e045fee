import Kairo.Actor.LifeStages
import Kairo.Actor.NoLostWakeup

/-!
# Panics

The callbacks of an actor and its factories are called under `catch_unwind`, which turns a panic into a
failure of the call.  The closure of an adapted envelope, which calls the mapping of a message adapter
or of an ask, is not: its panic ends the worker, and leaves the actor scheduled with no activation.
-/

namespace Kairo.Actor

open Kairo.Lib Turn Option List

/-! ## Turns without a panic -/

/-- The turn fails only by a call that has not returned. -/
def Contained {α : Type} (t : ActorTurn α) : Prop :=
  Triple (fun _ _ => True) t (fun _ _ _ => True) fun e _ _ => e = .unfinished

/-- Nothing is asserted but how a turn fails. -/
def containedStages : Stages where
  fresh _ _ _ := True
  notStarted _ _ _ := True
  live _ _ _ := True
  retiring _ _ _ := True
  fails e := e = .unfinished
  admits _ := True
  unfinished := rfl
  start h := h
  failStart h := h
  rebuild h := h
  effectNotStarted _ h := h
  effect _ h := h
  receive h := h
  signal _ h := h
  preRestart h := h
  effectRetiring _ h := h
  giveUp h := h
  replace h := h
  startFailed h := h

namespace Contained

variable {α β : Type} {t : ActorTurn α} {script : List Response} {cell : ActorCell}

lemma of_leads {P : Stage} {Q : α → Stage} (h : Leads containedStages P t Q)
    (hP : ∀ a b log, P a b log) : Contained t :=
  Triple.weaken h (fun _ _ _ => hP _ _ _) (fun _ _ _ _ => trivial) fun _ _ _ h => h

lemma bind {f : α → ActorTurn β} (ht : Contained t) (hf : ∀ x, Contained (f x)) :
    Contained (t >>= f) := Triple.bind ht hf

lemma pure (x : α) : Contained (pure x : ActorTurn α) := fun _ _ _ => trivial

lemma update (f : Execution → Execution) : Contained (Turn.update f : ActorTurn Unit) :=
  fun _ _ _ => trivial

lemma processMessage (props : Props) : Contained (processMessage props) :=
  of_leads (containedStages.leads_processMessage props) fun _ _ _ => trivial

lemma startActor (props : Props) : Contained (startActor props) := by
  refine bind (of_leads (Leads.build) fun _ _ _ => trivial) fun r => ?_
  cases r with
  | error reason => exact bind (update _) fun _ => pure _
  | ok id =>
    refine bind (update _) fun _ => bind (fun _ _ _ => trivial) fun s => bind (of_leads
      (containedStages.leads_applyStartResult props _) fun _ _ _ => trivial) fun _ => ?_
    exact bind (update _) fun _ => pure _

lemma terminate : Contained terminate :=
  of_leads (containedStages.leads_terminate (Q := fun _ _ _ => True)
    (fun _ _ _ h => h) fun _ _ _ h => h) fun _ _ _ => trivial

end Contained

def Outcome.isPanic : Outcome → Bool
  | .panic _ => true
  | .ok | .error _ => false

def firstReturns (script : List Response) : Bool := script.head?.all fun r => !r.outcome.isPanic

lemma adapt_contained (given : Bool) :
    Triple (fun s _ => firstReturns s.script = true) (adapt given)
      (fun _ _ _ => True) fun e _ _ => e = .unfinished := by
  intro s log hs
  unfold adapt respond
  cases hscript : s.script with
  | nil =>
    simp only [bind, EStateM.bind, state, hscript]
    rfl
  | cons r script =>
    rw [hscript] at hs
    cases ho : r.outcome with
    | panic message =>
      rw [firstReturns, head?_cons, all_some, ho] at hs
      cases hs
    | ok | error _ =>
      simp only [bind, EStateM.bind, state, hscript, Turn.update, pure, EStateM.pure, ho]
      trivial

lemma processDequeued_contained (props : Props) (d : Dequeued) :
    Triple (fun s _ => d.isAdapted = true → firstReturns s.script = true) (processDequeued props d)
      (fun _ _ _ => True) fun e _ _ => e = .unfinished := by
  cases hd : d.isAdapted with
  | false =>
    exact Triple.pre (Contained.of_leads (containedStages.leads_processDequeued props hd
      fun _ _ => trivial) fun _ _ _ => trivial) fun _ _ _ => trivial
  | true =>
    obtain ⟨given, rfl⟩ : ∃ given, d = .adapted given := by
      cases d with
      | adapted given => exact ⟨given, rfl⟩
      | _ => cases hd
    intro s log hs
    refine Triple.bind (adapt_contained given) (fun message => ?_) s log (hs rfl)
    cases message with
    | true => exact Contained.processMessage props
    | false => exact Contained.pure false

/-! ## Panics as failures -/

/-- A response whose panic was caught. -/
def Response.asFailure (r : Response) (callback message : String) : Response :=
  { r with outcome := .error ("actor " ++ callback ++ " panicked: " ++ message) }

/-- The calls under `catch_unwind` treat a panic as a failure of the call. -/
structure PanicsAreFailures : Prop where
  receive : ∀ (s : Execution) (log : List Event) (r : Response) (rest : List Response) (m : String),
    r.outcome = .panic m →
      invokeReceive ({ s with script := r :: rest }, log) =
        invokeReceive ({ s with script := r.asFailure "receive" m :: rest }, log)
  signal : ∀ (s : Execution) (log : List Event) (r : Response) (rest : List Response) (m : String)
    (signal : Signal), r.outcome = .panic m →
      invokeSignal signal ({ s with script := r :: rest }, log) =
        invokeSignal signal ({ s with script := r.asFailure "signal" m :: rest }, log)
  started : ∀ (s : Execution) (log : List Event) (r : Response) (rest : List Response) (m : String)
    (id : ℕ), r.outcome = .panic m →
      invokeStarted id ({ s with script := r :: rest }, log) =
        invokeStarted id ({ s with script := r.asFailure "started" m :: rest }, log)
  /-- A factory that panics gives no instance. -/
  factory : ∀ (s : Execution) (log : List Event) (r : Response) (rest : List Response) (m : String)
    (callback : String), r.outcome = .panic m →
      ∃ s', build callback ({ s with script := r :: rest }, log) =
        .ok (.error ("actor " ++ callback ++ " panicked: " ++ m)) (s', log) ∧
          s'.built = s.built ∧ s'.actor = s.actor

lemma panicsAreFailures : PanicsAreFailures := by
  constructor
  case factory =>
    intro s log r rest m callback hr
    simp only [build, respond, bind, EStateM.bind, state, Turn.update, pure, EStateM.pure, hr]
    exact ⟨_, rfl, rfl, rfl⟩
  all_goals
    intros
    simp only [invokeReceive, invokeSignal, invokeStarted, respond, bind, EStateM.bind, state,
      Turn.update, pure, EStateM.pure, Turn.send, caught, *, Response.asFailure]

/-! ## Activations -/

lemma runTurn_ne_error {α : Type} {execution : Execution} {t : ActorTurn α}
    {P : Execution → List Event → Prop}
    (ht : Triple P t (fun _ _ _ => True) fun e _ _ => e = .unfinished)
    (hP : P { execution with script, stopped := cell.stopped } []) m :
    runTurn cell execution script t ≠ some (.error m) := by
  have h := ht _ _ hP
  unfold runTurn
  intro he
  split at he
  · cases he
  · rename_i hr
    rw [hr] at h
    cases h
  · cases he

def Phase.callsMapping : Phase → Bool
  | .processing d _ | .processingSystem d => d.isAdapted
  | _ => false

variable {throughput : ℕ}

lemma activationStep_not_panicked {phase : Phase}
    (hm : phase.callsMapping = true → firstReturns script = true) :
    (activationStep throughput cell script phase).any Advance.isPanicked = false := by
  have hturn : ∀ {α : Type} {r : Option (Except String (α × ActorCell))}
      {f : Except String (α × ActorCell) → Advance}, (∀ m, r ≠ some (.error m)) →
        (∀ x, (f (.ok x)).isPanicked = false) → (r.map f).any Advance.isPanicked = false := by
    intro α r f hr hf
    cases r with
    | none => rfl
    | some x =>
      cases x with
      | error m => exact absurd rfl (hr m)
      | ok x => exact hf x
  cases phase with
  | entered =>
    rw [activationStep]
    split_ifs
    · rfl
    · split
      · rfl
      · refine hturn (runTurn_ne_error (Contained.startActor _) trivial) fun x => ?_
        obtain ⟨ok, cell⟩ := x
        cases ok <;> rfl
  | users processed =>
    rw [activationStep]
    split_ifs
    · split <;> rfl
    · rfl
  | processing d processed | processingSystem d =>
    rw [activationStep]
    cases cell.execution with
    | none => rfl
    | some execution =>
      exact hturn (runTurn_ne_error (processDequeued_contained _ d) hm) fun x => rfl
  | systems =>
    rw [activationStep]
    split_ifs
    · rfl
    · split <;> rfl
  | leaving | rechecking | recheckingMailbox =>
    rw [activationStep]
    split_ifs <;> rfl
  | closing | waking => rfl
  | waiting =>
    rw [activationStep]
    cases cell.execution with
    | none => rfl
    | some execution => exact hturn (runTurn_ne_error Contained.terminate trivial) fun x => rfl

/-! ## Runs -/

namespace Dispatch

variable {Id : Type*} [DecidableEq Id] {w : Dispatch Id} {act : Action Id}

/-- No mapping of an adapter or an ask panics. -/
def MappingsReturn (w : Dispatch Id) : Action Id → Prop
  | .advance k script => ∀ stack ∈ w.workers[k]?, ∀ f ∈ stack.head?,
      f.2.callsMapping = true → firstReturns script = true
  | _ => True

instance (w : Dispatch Id) : (act : Action Id) → Decidable (MappingsReturn w act)
  | .advance k script => inferInstanceAs (Decidable (∀ stack ∈ w.workers[k]?, ∀ f ∈ stack.head?,
      f.2.callsMapping = true → firstReturns script = true))
  | .register .. | .install _ | .enqueue .. | .prepend .. | .enqueueSystem .. | .requestStop _
  | .enqueueStop _ | .wake _ | .take _ => isTrue trivial

lemma noPanic_of_mappingsReturn (h : MappingsReturn w act) : NoPanic throughput w act := by
  cases act with
  | advance k script =>
    intro stack hk f hf cell _
    exact activationStep_not_panicked (h stack hk f hf)
  | _ => trivial

lemma workers_kept {t : Dispatch Id} (hok : NoPanic throughput w act)
    (ht : w.step throughput act = some t) :
    t.workers.length = w.workers.length ∧ t.crashed = w.crashed := by
  have hschedule : ∀ (w : Dispatch Id) a,
      (w.schedule a).workers = w.workers ∧ (w.schedule a).crashed = w.crashed := by
    intro w a
    unfold schedule
    split
    · exact ⟨rfl, rfl⟩
    · split_ifs <;> exact ⟨rfl, rfl⟩
  cases act with
  | register a props userCapacity =>
    rw [Dispatch.step] at ht
    split at ht
    · cases ht
    · cases ht
      exact ⟨rfl, rfl⟩
  | install a | enqueueSystem a d =>
    obtain ⟨cell, hl, ht⟩ := bind_eq_some_iff.mp ht
    split_ifs at ht
    cases ht
    exact ⟨rfl, rfl⟩
  | enqueue a d =>
    obtain ⟨cell, hl, ht⟩ := bind_eq_some_iff.mp ht
    split_ifs at ht
    split at ht
    · cases ht
      exact ⟨rfl, rfl⟩
    · cases ht
      cases d <;> exact ⟨rfl, rfl⟩
    · cases ht
      exact ⟨rfl, rfl⟩
  | prepend a count =>
    obtain ⟨cell, hl, rfl⟩ := map_eq_some_iff.mp ht
    split <;> exact ⟨rfl, rfl⟩
  | requestStop a =>
    obtain ⟨cell, hl, rfl⟩ := map_eq_some_iff.mp ht
    split_ifs <;> exact ⟨rfl, rfl⟩
  | enqueueStop i =>
    obtain ⟨a, hi, ht⟩ := bind_eq_some_iff.mp ht
    obtain ⟨cell, hl, rfl⟩ := map_eq_some_iff.mp ht
    exact ⟨rfl, rfl⟩
  | wake i =>
    obtain ⟨a, hi, rfl⟩ := map_eq_some_iff.mp ht
    rw [(hschedule _ a).1, (hschedule _ a).2]
    exact ⟨rfl, rfl⟩
  | take k =>
    obtain ⟨stack, hk, ht⟩ := bind_eq_some_iff.mp ht
    split at ht
    · cases ht
    · split_ifs at ht
      cases ht
      exact ⟨length_set, rfl⟩
  | advance k script =>
    obtain ⟨stack, hk, ht⟩ := bind_eq_some_iff.mp ht
    cases stack with
    | nil => cases ht
    | cons f rest =>
      obtain ⟨a, phase⟩ := f
      obtain ⟨cell, hl, ht⟩ := bind_eq_some_iff.mp ht
      obtain ⟨adv, hadv, rfl⟩ := map_eq_some_iff.mp ht
      cases adv with
      | next cell' phase' | done => exact ⟨length_set, rfl⟩
      | wake =>
        rw [(hschedule _ a).1, (hschedule _ a).2]
        exact ⟨length_set, rfl⟩
      | panicked =>
        have hno := hok _ hk _ rfl cell hl
        rw [hadv] at hno
        cases hno

/-- One worker starts an actor, which gets an adapted message. -/
def adaptedRun : List (Action ℕ) :=
  [.register 0 ⟨.resume, false⟩ none, .install 0, .enqueue 0 (.adapted true), .wake 0, .take 0,
    .advance 0 [⟨.ok, false, 0⟩, ⟨.ok, false, 0⟩], .advance 0 []]

end Dispatch

end Kairo.Actor
