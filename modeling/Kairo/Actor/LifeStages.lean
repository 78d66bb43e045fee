import Kairo.Actor.Supervision

/-!
# The stages of an actor

`Stages` collects assertions about an actor that is freshly built, was not started, is in use, or has
got its cleanup signal, with what a call or an effect does to them.  The turns of supervision are
followed once, for any such assertions.
-/

namespace Kairo.Actor

open Kairo.Lib Turn

/-- An effect on other actors. -/
def Event.isEffect : Event → Bool
  | .stopChildren | .restartChildren | .escalate _ => true
  | .call .. | .noReplacement => false

/-- An assertion about the instance that is the actor, the number of instances built and the log. -/
abbrev Stage := ℕ → ℕ → List Event → Prop

def On (P : Stage) (s : Execution) (log : List Event) : Prop := P s.actor s.built log

structure Stages where
  fresh : Stage
  notStarted : Stage
  live : Stage
  /-- The actor has got its cleanup signal. -/
  retiring : Stage
  fails : Interrupt → Prop
  /-- The signals that an actor in use gets. -/
  admits : Signal → Prop
  unfinished : fails .unfinished
  start : ∀ {a b log}, fresh a b log → live a b (log ++ [.call a (.started true)])
  failStart : ∀ {a b log}, fresh a b log → notStarted a b (log ++ [.call a (.started false)])
  rebuild : ∀ {a i log}, notStarted a i log → fresh i (i + 1) log
  effectNotStarted : ∀ {e a b log}, e.isEffect = true → notStarted a b log →
    notStarted a b (log ++ [e])
  effect : ∀ {e a b log}, e.isEffect = true → live a b log → live a b (log ++ [e])
  receive : ∀ {a b log}, live a b log → live a b (log ++ [.call a .receive])
  signal : ∀ {signal a b log}, admits signal → live a b log →
    live a b (log ++ [.call a (.signal signal)])
  preRestart : ∀ {a b log}, live a b log → retiring a b (log ++ [.call a (.signal .preRestart)])
  effectRetiring : ∀ {e a b log}, e.isEffect = true → retiring a b log → retiring a b (log ++ [e])
  giveUp : ∀ {a b log}, retiring a b log → live a b (log ++ [.noReplacement])
  replace : ∀ {a i log}, retiring a i log → live i (i + 1) (log ++ [.call i (.started true)])
  startFailed : ∀ {a i log}, retiring a i log →
    retiring a (i + 1) (log ++ [.call i (.started false)])

/-- The turn leads from `P` to `Q` if it ends. -/
def Leads {α : Type} (c : Stages) (P : Stage) (t : ActorTurn α) (Q : α → Stage) : Prop :=
  Triple (On P) t (fun x => On (Q x)) fun e _ _ => c.fails e

namespace Leads

variable {α β : Type} {c : Stages} {P : Stage} {Q : α → Stage} {t : ActorTurn α} {R : β → Stage}
  {f : Execution → ActorTurn β}

lemma bind {f : α → ActorTurn β} (ht : Leads c P t Q)
    (hf : ∀ x, Leads c (Q x) (f x) R) : Leads c P (t >>= f) R := Triple.bind ht hf

lemma skip {x : α} : Leads c P (pure x) fun _ => P := fun _ _ h => h

lemma pure {x : α} (h : ∀ a b log, P a b log → Q x a b log) : Leads c P (pure x) Q :=
  fun _ _ hP => h _ _ _ hP

lemma fail {e : Interrupt} (he : c.fails e) : Leads c P (fail e) Q := fun _ _ _ => he

lemma state (h : ∀ s : Execution, Leads c P (f s) R) : Leads c P (Turn.state >>= f) R := by
  refine Triple.bind (Q := fun _ => On P) (fun _ _ hP => hP) h

lemma state_actor (h : ∀ s : Execution, Leads c (fun a b log => a = s.actor ∧ P a b log) (f s) R) :
    Leads c P (Turn.state >>= f) R := by
  refine Triple.bind ?_ h
  exact fun s _ hP => ⟨rfl, hP⟩

lemma update {f : Execution → Execution}
    (hf : ∀ s, (f s).actor = s.actor ∧ (f s).built = s.built) :
    Leads c P (Turn.update f) fun _ => P := by
  intro s log hP
  show P (f s).actor (f s).built log
  rwa [(hf s).1, (hf s).2]

lemma send {e : Event} {Q : Unit → Stage}
    (h : ∀ a b log, P a b log → Q () a b (log ++ [e])) : Leads c P (Turn.send e) Q :=
  fun _ _ hP => h _ _ _ hP

lemma respond (hasContext : Bool) : Leads c P (respond hasContext) fun _ => P := by
  refine state fun s => ?_
  cases s.script with
  | nil => exact fail c.unfinished
  | cons r script =>
    exact bind (update fun _ => ⟨rfl, rfl⟩) fun _ =>
      pure fun _ _ _ h => h

lemma invokeReceive {R : Stage}
    (h : ∀ a b log, P a b log → R a b (log ++ [.call a .receive])) :
    Leads c P invokeReceive fun _ => R := by
  refine state_actor fun s => bind (respond true) fun r => bind (send ?_) fun _ =>
    pure fun _ _ _ h => h
  rintro a b log ⟨rfl, hP⟩
  exact h _ _ _ hP

lemma invokeSignal {signal : Signal} {R : Stage}
    (h : ∀ a b log, P a b log → R a b (log ++ [.call a (.signal signal)])) :
    Leads c P (invokeSignal signal) fun _ => R := by
  refine state_actor fun s => bind (respond true) fun r => bind (send ?_) fun _ =>
    pure fun _ _ _ h => h
  rintro a b log ⟨rfl, hP⟩
  exact h _ _ _ hP

lemma invokeStarted {i : ℕ} {R : Except String Unit → Stage}
    (h : ∀ r a b log, P a b log → R r a b (log ++ [.call i (.started (isOk r))])) :
    Leads c P (invokeStarted i) R := by
  exact bind (respond true) fun r => bind (send (h _)) fun _ => pure fun _ _ _ h => h

lemma build {callback : String} :
    Leads c P (build callback) fun
      | .error _ => P
      | .ok i => fun a b log => b = i + 1 ∧ P a i log := by
  refine bind (respond false) fun r => ?_
  cases r.outcome with
  | panic message => exact pure fun _ _ _ h => h
  | ok | error _ => exact fun s log hP => ⟨rfl, hP⟩

lemma buildRestart {props : Props} :
    Leads c P (buildRestart props) fun
      | .error _ => P
      | .ok i => fun a b log => b = i + 1 ∧ P a i log := by
  unfold Kairo.Actor.buildRestart
  split
  · exact build
  · exact pure fun _ _ _ h => h

end Leads

/-- What is processed calls a mapping first. -/
def Dequeued.isAdapted : Dequeued → Bool
  | .adapted _ => true
  | _ => false

def Dequeued.signal? : Dequeued → Option Signal
  | .signal s _ | .gatedSignal s => some s
  | _ => none

namespace Stages

variable (c : Stages) {P : Stage}

/-! ## Restarts -/

lemma leads_invokePreRestart : Leads c c.live invokePreRestart fun _ => c.retiring := by
  refine .state fun s => .bind (.update fun _ => ⟨rfl, rfl⟩)
    fun _ => .bind (.invokeSignal fun _ _ _ h => c.preRestart h) fun result =>
      .bind (.update fun _ => ⟨rfl, rfl⟩) fun _ =>
        .skip

lemma leads_stopChildrenIf (stopChildren : Bool) :
    Leads c c.retiring (stopChildrenIf stopChildren) fun _ => c.retiring := by
  unfold stopChildrenIf
  split
  · exact .send fun _ _ _ h => c.effectRetiring rfl h
  · exact .skip

lemma leads_giveUpRestart (reason : String) :
    Leads c c.retiring (giveUpRestart reason) fun _ => c.live :=
  .bind (.send fun _ _ _ h => c.giveUp h) fun _ => .skip

lemma leads_replaceActor (i : ℕ) (stopChildren : Bool) :
    Leads c (fun _ b log => c.live i b log) (replaceActor i stopChildren) fun _ => c.live := by
  refine .bind (Q := fun _ => c.live) (fun s log hP => hP) fun _ => ?_
  cases stopChildren with
  | true => exact .skip
  | false =>
    exact .bind (.send fun _ _ _ h => c.effect rfl h) fun _ => .skip

lemma leads_startReplacement (i : ℕ) :
    Leads c (fun a b log => b = i + 1 ∧ c.retiring a i log) (invokeStarted i) fun
      | .ok _ => fun _ b log => c.live i b log
      | .error _ => c.retiring := by
  refine .invokeStarted ?_
  rintro r a b log ⟨rfl, h⟩
  cases r with
  | ok _ => exact c.replace h
  | error _ => exact c.startFailed h

lemma leads_clearStopRequested :
    Leads c P (update fun s => { s with stopRequested := false }) fun _ => P :=
  .update fun _ => ⟨rfl, rfl⟩

variable (props : Props)

lemma leads_restartActor (stopChildren : Bool) :
    Leads c c.live (restartActor props stopChildren) fun _ => c.live := by
  refine .bind c.leads_invokePreRestart fun _ => .bind (c.leads_stopChildrenIf _) fun _ =>
    .bind .buildRestart fun r => ?_
  cases r with
  | error reason => exact c.leads_giveUpRestart reason
  | ok i =>
    refine .bind c.leads_clearStopRequested fun _ => .bind (c.leads_startReplacement i) fun r => ?_
    cases r with
    | error reason => exact c.leads_giveUpRestart reason
    | ok _ => exact c.leads_replaceActor i stopChildren

variable (maxRestarts within : ℕ)

lemma leads_restartAllowed :
    Leads c P (restartAllowed maxRestarts within) fun _ => P := fun _ _ hP => hP

lemma leads_startupRestartAllowed :
    Leads c P (startupRestartAllowed maxRestarts within) fun _ => P := fun _ _ hP => hP

lemma leads_restartAttempts (stopChildren : Bool) (fuel : ℕ) :
    Leads c c.retiring
      (restartAttempts props maxRestarts within stopChildren fuel) fun _ => c.live := by
  induction fuel with
  | zero => exact .fail c.unfinished
  | succ fuel ih =>
    refine .bind .buildRestart fun r => ?_
    cases r with
    | error reason => exact c.leads_giveUpRestart reason
    | ok i =>
      refine .bind c.leads_clearStopRequested fun _ => .bind (c.leads_startReplacement i) fun r => ?_
      cases r with
      | ok _ => exact c.leads_replaceActor i stopChildren
      | error reason =>
        refine .bind (.send (Q := fun _ => c.retiring) fun _ _ _ h => c.effectRetiring rfl h) fun _ =>
          .bind (c.leads_restartAllowed _ _) fun allowed => ?_
        cases allowed with
        | true => exact ih
        | false => exact c.leads_giveUpRestart reason

lemma leads_restartActorWithLimit (stopChildren : Bool) :
    Leads c c.live (restartActorWithLimit props maxRestarts within stopChildren) fun _ => c.live := by
  exact .bind c.leads_invokePreRestart fun _ => .bind (c.leads_stopChildrenIf _) fun _ =>
    .state fun s => c.leads_restartAttempts props maxRestarts within stopChildren _

lemma leads_applyActorFailure (reason : String) :
    Leads c c.live (applyActorFailure props reason) fun _ => c.live := by
  have hrestart : Leads c c.live (do
      let result ← restartActor props props.supervisor.stopChildrenOnRestart
      pure (!isOk result)) fun _ => c.live :=
    .bind (c.leads_restartActor props _) fun _ => .skip
  unfold applyActorFailure
  cases hsup : props.supervisor with
  | stop | resume => exact .skip
  | escalate =>
    exact .bind (.send fun _ _ _ h => c.effect rfl h) fun _ => .skip
  | restart | restartPreservingChildren => rw [hsup] at hrestart; exact hrestart
  | restartWithLimit maxRestarts within stopChildren =>
    refine .bind (c.leads_restartAllowed _ _) fun allowed => ?_
    cases allowed with
    | true =>
      exact .bind (c.leads_restartActorWithLimit props maxRestarts within stopChildren) fun _ =>
        .skip
    | false => exact .skip

lemma leads_applyReceiveResult (r : Except String Unit) :
    Leads c c.live (applyReceiveResult props r) fun _ => c.live := by
  cases r with
  | ok _ => exact .skip
  | error reason =>
    refine .bind (c.leads_applyActorFailure props reason) fun stop => ?_
    cases stop with
    | true | false => exact .skip

lemma leads_stopAfter (stopReason : Option String) :
    Leads c P (stopAfter stopReason) fun _ => P := by
  refine .update fun s => ?_
  split_ifs <;> exact ⟨rfl, rfl⟩

/-! ## Messages -/

lemma leads_processSignal {signal : Signal} (h : c.admits signal) :
    Leads c c.live (processSignal props signal) fun _ => c.live := by
  exact .bind (.invokeSignal fun _ _ _ hl => c.signal h hl) fun r =>
    .bind (c.leads_applyReceiveResult props r) fun _ => .bind (c.leads_stopAfter _) fun _ =>
      .skip

lemma leads_processMessage : Leads c c.live (processMessage props) fun _ => c.live := by
  exact .bind (.invokeReceive fun _ _ _ hl => c.receive hl) fun r =>
    .bind (c.leads_applyReceiveResult props r) fun _ => .bind (c.leads_stopAfter _) fun _ =>
      .skip

lemma leads_processDequeued {d : Dequeued} (hd : d.isAdapted = false)
    (hs : ∀ signal ∈ d.signal?, c.admits signal) :
    Leads c c.live (processDequeued props d) fun _ => c.live := by
  have hskip : Leads c c.live (pure false) fun _ => c.live := .skip
  cases d with
  | stop | closed =>
    exact .bind (.update fun _ => ⟨rfl, rfl⟩) fun _ => hskip
  | restart =>
    exact .bind (c.leads_restartActor props _) fun r => .bind (c.leads_applyReceiveResult props r)
      fun _ => .bind (c.leads_stopAfter _) fun _ => hskip
  | signal signal queued =>
    cases signal with
    | preRestart | postStop => exact c.leads_processSignal props (hs _ rfl)
    | terminated _ | childFailed _ _ =>
      cases queued with
      | true => exact c.leads_processSignal props (hs _ rfl)
      | false => exact hskip
  | gatedSignal signal => exact c.leads_processSignal props (hs _ rfl)
  | supervisionFailure child reason =>
    refine .bind (c.leads_applyActorFailure props _) fun stop =>
      .bind (.update fun s => ?_) fun _ => hskip
    split_ifs <;> exact ⟨rfl, rfl⟩
  | message => exact c.leads_processMessage props
  | timer accepted | receiveTimeout accepted =>
    cases accepted with
    | true => exact c.leads_processMessage props
    | false => exact hskip
  | adapted given => cases hd

/-! ## Start and termination -/

lemma leads_restartAfterStartFailure :
    Leads c c.notStarted (restartAfterStartFailure props) fun
      | .ok _ => c.fresh
      | .error _ => c.notStarted := by
  refine .bind (.send (Q := fun _ => c.notStarted) fun _ _ _ h => c.effectNotStarted rfl h) fun _ =>
    .bind .buildRestart fun r => ?_
  cases r with
  | error reason => exact .pure fun _ _ _ h => h
  | ok i =>
    refine .bind (fun s log hP => ?_) fun _ => .pure fun _ _ _ h => h
    obtain ⟨hb, h⟩ := hP
    show c.fresh i s.built log
    rw [hb]
    exact c.rebuild h

lemma leads_firstStart (i : ℕ) :
    Leads c (fun a b log => a = i ∧ c.fresh a b log) (invokeStarted i) fun
      | .ok _ => c.live
      | .error _ => c.notStarted := by
  refine .invokeStarted ?_
  rintro r a b log ⟨rfl, h⟩
  cases r with
  | ok _ => exact c.start h
  | error _ => exact c.failStart h

lemma leads_applyStartResult (fuel : ℕ) :
    Leads c c.fresh (applyStartResult props fuel) fun
      | none => c.live
      | some _ => c.notStarted := by
  induction fuel with
  | zero => exact .fail c.unfinished
  | succ fuel ih =>
    refine .state_actor fun s => .bind (c.leads_firstStart s.actor) fun r => ?_
    cases r with
    | ok _ => exact .pure fun _ _ _ h => h
    | error reason =>
      have hstop : Leads c c.notStarted (pure (some reason)) fun
          | none => c.live
          | some _ => c.notStarted := .pure fun _ _ _ h => h
      cases props.supervisor with
      | stop | resume | restart | restartPreservingChildren => exact hstop
      | escalate =>
        exact .bind (.send fun _ _ _ h => c.effectNotStarted rfl h) fun _ => hstop
      | restartWithLimit maxRestarts within _ =>
        refine .bind (c.leads_startupRestartAllowed _ _) fun allowed => ?_
        cases allowed with
        | false => exact hstop
        | true =>
          refine .bind (c.leads_restartAfterStartFailure props) fun r => ?_
          cases r with
          | ok _ => exact ih
          | error _ => exact hstop

lemma leads_terminate {P Q : Stage}
    (heffect : ∀ a b log, P a b log → P a b (log ++ [.stopChildren]))
    (hstop : ∀ a b log, P a b log → Q a b (log ++ [.call a (.signal .postStop)])) :
    Leads c P terminate fun _ => Q := by
  exact .bind (.send heffect) fun _ => .bind (.invokeSignal hstop) fun _ =>
    .skip

end Stages

end Kairo.Actor
