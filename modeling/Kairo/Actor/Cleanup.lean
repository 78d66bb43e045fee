import Kairo.Actor.LifeStages

/-!
# Cleanup signals

Every instance of an actor that was started should get one cleanup signal, `PreRestart` or `PostStop`,
and no call after it.  A restart signals the old instance before it has a replacement, and when there
is none the old instance remains the actor.  `cleanup_iff` says that this is the only way to a second
cleanup: the instances of a terminated actor are cleaned up once exactly when no restart was given up.
-/

namespace Kairo.Actor

open Kairo.Lib Turn List Triple

/-! ## The calls of an instance -/

def Call.isCleanup : Call → Bool
  | .signal .preRestart | .signal .postStop => true
  | _ => false

def callsOf (i : ℕ) (log : List Event) : List Call :=
  log.filterMap fun
    | .call j c => if j = i then some c else none
    | _ => none

def Started (i : ℕ) (log : List Event) : Prop := .started true ∈ callsOf i log

instance (i : ℕ) (log : List Event) : Decidable (Started i log) :=
  inferInstanceAs (Decidable (_ ∈ _))

/-- One cleanup signal, after which no call comes. -/
def OneCleanup (calls : List Call) : Prop :=
  calls.countP Call.isCleanup = 1 ∧ calls.getLast?.any Call.isCleanup = true

def cleanups (i : ℕ) (log : List Event) : ℕ := (callsOf i log).countP Call.isCleanup

variable {i j a b : ℕ} {c : Call} {log : List Event} {e : Event} {ds : List Dequeued}

lemma callsOf_call (i j : ℕ) (c : Call) (log : List Event) :
    callsOf i (log ++ [.call j c]) = if j = i then callsOf i log ++ [c] else callsOf i log := by
  unfold callsOf
  rw [filterMap_append]
  by_cases h : j = i <;> simp [h]

lemma callsOf_append (he : ∀ j c, e ≠ .call j c) : callsOf i (log ++ [e]) = callsOf i log := by
  unfold callsOf
  rw [filterMap_append]
  cases e with
  | call j c => exact absurd rfl (he j c)
  | noReplacement | stopChildren | restartChildren | escalate _ => exact append_nil _

lemma callsOf_effect (he : e.isEffect = true) : callsOf i (log ++ [e]) = callsOf i log := by
  refine callsOf_append ?_
  rintro j c rfl
  cases he

lemma noReplacement_mem_effect (he : e.isEffect = true) :
    .noReplacement ∈ log ++ [e] ↔ .noReplacement ∈ log := by
  rw [mem_append, mem_singleton]
  refine or_iff_left ?_
  rintro rfl
  cases he

lemma noReplacement_mem_call : .noReplacement ∈ log ++ [.call j c] ↔ .noReplacement ∈ log := by
  simp

lemma oneCleanup_append (calls : List Call) (h0 : calls.countP Call.isCleanup = 0)
    (hc : c.isCleanup = true) : OneCleanup (calls ++ [c]) := by
  constructor
  · rw [countP_append, h0, countP_singleton, if_pos hc]
  · rw [getLast?_concat]
    exact hc

/-! ## Assertions

`a` is the instance that is the actor and `b` the number of instances built. -/

/-- The instances that are not built have no calls, and the actor was started. -/
structure Known (a b : ℕ) (log : List Event) : Prop where
  unbuilt : ∀ i, b ≤ i → callsOf i log = []
  started : Started a log

def Twice (log : List Event) : Prop := ∃ i, Started i log ∧ 2 ≤ cleanups i log

/-- All started instances are cleaned up once, or a restart was given up and it shows. -/
def Settled (log : List Event) : Prop :=
  (.noReplacement ∉ log ∧ ∀ i, Started i log → OneCleanup (callsOf i log)) ∨
    (.noReplacement ∈ log ∧ Twice log)

/-- The actor is in use. -/
def Live (a b : ℕ) (log : List Event) : Prop :=
  Known a b log ∧
    ((.noReplacement ∉ log ∧ cleanups a log = 0 ∧
        ∀ i, i ≠ a → Started i log → OneCleanup (callsOf i log)) ∨
      (.noReplacement ∈ log ∧ (1 ≤ cleanups a log ∨ Twice log)))

/-- The actor has got its cleanup signal. -/
def Retiring (a b : ℕ) (log : List Event) : Prop := Known a b log ∧ Settled log

def Unstarted (b : ℕ) (log : List Event) : Prop :=
  (∀ i, b ≤ i → callsOf i log = []) ∧ .noReplacement ∉ log ∧ ∀ i, ¬ Started i log

lemma Settled.iff (h : Settled log) :
    (∀ i, Started i log → OneCleanup (callsOf i log)) ↔ .noReplacement ∉ log := by
  rcases h with ⟨hno, hall⟩ | ⟨hyes, i, hs, h2⟩
  · exact ⟨fun _ => hno, fun _ => hall⟩
  · refine ⟨fun hall => ?_, fun hno => absurd hyes hno⟩
    have h1 : cleanups i log = 1 := (hall i hs).1
    omega

lemma started_call_iff (hc : c ≠ .started true) :
    Started i (log ++ [.call j c]) ↔ Started i log := by
  unfold Started
  rw [callsOf_call]
  split_ifs
  · rw [mem_append, mem_singleton]
    exact or_iff_left hc.symm
  · exact Iff.rfl

lemma cleanups_call (hc : c.isCleanup = true) :
    cleanups i (log ++ [.call j c]) = cleanups i log + if j = i then 1 else 0 := by
  unfold cleanups
  rw [callsOf_call]
  split_ifs
  · rw [countP_append, countP_singleton, if_pos hc]
  · rfl

lemma cleanups_call_other (hc : c.isCleanup = false) :
    cleanups i (log ++ [.call j c]) = cleanups i log := by
  unfold cleanups
  rw [callsOf_call]
  split_ifs
  · rw [countP_append, countP_singleton, hc]
    rfl
  · rfl

lemma ne_started_of_isCleanup (hc : c.isCleanup = true) : c ≠ .started true := by
  rintro rfl
  cases hc

lemma Known.call (h : Known a b log) (hc : c ≠ .started true) :
    Known a b (log ++ [.call a c]) where
  unbuilt i hi := by
    rw [callsOf_call, if_neg, h.unbuilt i hi]
    rintro rfl
    have hs := h.started
    rw [Started, h.unbuilt a hi] at hs
    cases hs
  started := (started_call_iff hc).mpr h.started

lemma Twice.call (h : Twice log) (hc : c ≠ .started true) : Twice (log ++ [.call j c]) := by
  obtain ⟨i, hs, h2⟩ := h
  refine ⟨i, (started_call_iff hc).mpr hs, ?_⟩
  cases hcl : c.isCleanup with
  | false => rwa [cleanups_call_other hcl]
  | true => exact Nat.le_trans h2 (by rw [cleanups_call hcl]; omega)

lemma Live.call (h : Live a b log) (hc : c.isCleanup = false) (hs : c ≠ .started true) :
    Live a b (log ++ [.call a c]) := by
  obtain ⟨hk, hgood | hbad⟩ := h
  · obtain ⟨hno, h0, hall⟩ := hgood
    refine ⟨hk.call hs, .inl ⟨noReplacement_mem_call.not.mpr hno, ?_, fun i hi hsi => ?_⟩⟩
    · rwa [cleanups_call_other hc]
    · rw [callsOf_call, if_neg hi.symm]
      exact hall i hi ((started_call_iff hs).mp hsi)
  · obtain ⟨hyes, h1 | h2⟩ := hbad
    · refine ⟨hk.call hs, .inr ⟨noReplacement_mem_call.mpr hyes, .inl ?_⟩⟩
      rwa [cleanups_call_other hc]
    · exact ⟨hk.call hs, .inr ⟨noReplacement_mem_call.mpr hyes, .inr (h2.call hs)⟩⟩

lemma Live.cleanup (h : Live a b log) (hc : c.isCleanup = true) :
    Retiring a b (log ++ [.call a c]) := by
  have hs : c ≠ .started true := ne_started_of_isCleanup hc
  obtain ⟨hk, hgood | hbad⟩ := h
  · obtain ⟨hno, h0, hall⟩ := hgood
    refine ⟨hk.call hs, .inl ⟨noReplacement_mem_call.not.mpr hno, fun i hsi => ?_⟩⟩
    rw [callsOf_call]
    by_cases hi : a = i
    · rw [if_pos hi, ← hi]
      exact oneCleanup_append _ h0 hc
    · rw [if_neg hi]
      exact hall i (Ne.symm hi) ((started_call_iff hs).mp hsi)
  · obtain ⟨hyes, h1 | h2⟩ := hbad
    · -- the second cleanup signal of the same instance
      refine ⟨hk.call hs, .inr ⟨noReplacement_mem_call.mpr hyes, a, ?_, ?_⟩⟩
      · exact (started_call_iff hs).mpr hk.started
      · rw [cleanups_call hc, if_pos rfl]
        omega
    · exact ⟨hk.call hs, .inr ⟨noReplacement_mem_call.mpr hyes, h2.call hs⟩⟩

lemma Settled.start (h : Settled log) (hu : ∀ j, i ≤ j → callsOf j log = []) :
    Live i (i + 1) (log ++ [.call i (.started true)]) := by
  have hother : ∀ j, j ≠ i → callsOf j (log ++ [.call i (.started true)]) = callsOf j log :=
    fun j hj => by rw [callsOf_call, if_neg hj.symm]
  refine ⟨⟨fun j hj => ?_, ?_⟩, ?_⟩
  · rw [hother j (by omega)]
    exact hu j (by omega)
  · rw [Started, callsOf_call, if_pos rfl]
    exact mem_concat_self
  · rcases h with ⟨hno, hall⟩ | ⟨hyes, j, hs, h2⟩
    · refine .inl ⟨noReplacement_mem_call.not.mpr hno, ?_, fun j hj hsj => ?_⟩
      · rw [cleanups_call_other rfl, cleanups, hu i (Nat.le_refl _)]
        rfl
      · rw [hother j hj]
        rw [Started, hother j hj] at hsj
        exact hall j hsj
    · refine .inr ⟨noReplacement_mem_call.mpr hyes, .inr ⟨j, ?_, ?_⟩⟩
      · have hj : j ≠ i := by
          rintro rfl
          rw [Started, hu j (Nat.le_refl _)] at hs
          cases hs
        rwa [Started, hother j hj]
      · rwa [cleanups_call_other rfl]

lemma Retiring.startFailed (h : Retiring a i log) :
    Retiring a (i + 1) (log ++ [.call i (.started false)]) := by
  obtain ⟨hk, hset⟩ := h
  have hne : Call.started false ≠ .started true := by decide
  refine ⟨⟨fun j hj => ?_, (started_call_iff hne).mpr hk.started⟩, ?_⟩
  · rw [callsOf_call, if_neg (by omega)]
    exact hk.unbuilt j (by omega)
  · rcases hset with ⟨hno, hall⟩ | ⟨hyes, h2⟩
    · refine .inl ⟨noReplacement_mem_call.not.mpr hno, fun j hsj => ?_⟩
      have hs : Started j log := (started_call_iff hne).mp hsj
      rw [callsOf_call, if_neg]
      · exact hall j hs
      · rintro rfl
        rw [Started, hk.unbuilt i (Nat.le_refl _)] at hs
        cases hs
    · exact .inr ⟨noReplacement_mem_call.mpr hyes, h2.call hne⟩

lemma Retiring.giveUp (h : Retiring a b log) : Live a b (log ++ [.noReplacement]) := by
  obtain ⟨hk, hset⟩ := h
  have hcalls : ∀ i, callsOf i (log ++ [.noReplacement]) = callsOf i log := fun i =>
    callsOf_append (by rintro j c ⟨⟩)
  refine ⟨⟨fun i hi => (hcalls i).trans (hk.unbuilt i hi), ?_⟩, .inr ⟨mem_concat_self, ?_⟩⟩
  · rw [Started, hcalls]
    exact hk.started
  · rcases hset with ⟨-, hall⟩ | ⟨-, i, hs, h2⟩
    · refine .inl ?_
      rw [cleanups, hcalls]
      exact Nat.le_of_eq (hall a hk.started).1.symm
    · refine .inr ⟨i, ?_, ?_⟩
      · rwa [Started, hcalls]
      · rwa [cleanups, hcalls]

section Effects

variable (he : e.isEffect = true)

include he

lemma Known.effect (h : Known a b log) : Known a b (log ++ [e]) where
  unbuilt i hi := (callsOf_effect he).trans (h.unbuilt i hi)
  started := by
    rw [Started, callsOf_effect he]
    exact h.started

lemma twice_effect_iff : Twice (log ++ [e]) ↔ Twice log := by
  unfold Twice Started cleanups
  simp only [callsOf_effect he]

lemma Retiring.effect (h : Retiring a b log) : Retiring a b (log ++ [e]) := by
  refine ⟨h.1.effect he, ?_⟩
  unfold Settled Started
  simp only [callsOf_effect he, noReplacement_mem_effect he, twice_effect_iff he]
  exact h.2

lemma Live.effect (h : Live a b log) : Live a b (log ++ [e]) := by
  refine ⟨h.1.effect he, ?_⟩
  unfold cleanups Started
  simp only [callsOf_effect he, noReplacement_mem_effect he, twice_effect_iff he]
  exact h.2

lemma Unstarted.effect (h : Unstarted b log) : Unstarted b (log ++ [e]) := by
  obtain ⟨h1, h2, h3⟩ := h
  refine ⟨fun i hi => (callsOf_effect he).trans (h1 i hi),
    (noReplacement_mem_effect he).not.mpr h2, fun i hi => h3 i ?_⟩
  rwa [Started, callsOf_effect he] at hi

end Effects

/-! ## Stages -/

/-- The instance that is the actor has just been built. -/
def Fresh (a b : ℕ) (log : List Event) : Prop := b = a + 1 ∧ Unstarted a log

lemma Unstarted.call (h : Unstarted b log) (hj : j < b) (hc : c ≠ .started true) :
    Unstarted b (log ++ [.call j c]) := by
  obtain ⟨h1, h2, h3⟩ := h
  refine ⟨fun i hi => ?_, noReplacement_mem_call.not.mpr h2, fun i hi => ?_⟩
  · rw [callsOf_call, if_neg (by omega)]
    exact h1 i hi
  · exact h3 i ((started_call_iff hc).mp hi)

lemma Unstarted.mono {b' : ℕ} (h : Unstarted b log) (hb : b ≤ b') : Unstarted b' log :=
  ⟨fun i hi => h.1 i (by omega), h.2⟩

lemma Unstarted.settled (h : Unstarted b log) : Settled log :=
  .inl ⟨h.2.1, fun i hi => absurd hi (h.2.2 i)⟩

/-- The actor was not started; its instance is a built one. -/
def NotStarted (a b : ℕ) (log : List Event) : Prop := a < b ∧ Unstarted b log

/-- Every failure is allowed. -/
def cleanupStages : Stages where
  fresh := Fresh
  notStarted := NotStarted
  live := Live
  retiring := Retiring
  fails _ := True
  admits signal := (Call.signal signal).isCleanup = false
  unfinished := trivial
  start := by
    rintro a _ log ⟨rfl, h⟩
    exact h.settled.start h.1
  failStart := by
    rintro a _ log ⟨rfl, h⟩
    exact ⟨Nat.lt_succ_self a, (h.mono (Nat.le_succ a)).call (Nat.lt_succ_self a) (by decide)⟩
  rebuild h := ⟨rfl, h.2⟩
  effectNotStarted he h := ⟨h.1, h.2.effect he⟩
  effect he h := h.effect he
  receive h := h.call rfl (by rintro ⟨⟩)
  signal hs h := h.call hs (by rintro ⟨⟩)
  preRestart h := h.cleanup rfl
  effectRetiring he h := h.effect he
  giveUp h := h.giveUp
  replace h := h.2.start h.1.unbuilt
  startFailed h := h.startFailed

/-! ## Messages -/

/-- The signals in the mailbox are those of the death watch. -/
def Dequeued.isNotice : Dequeued → Bool
  | .signal .preRestart _ | .signal .postStop _ | .gatedSignal .preRestart
  | .gatedSignal .postStop => false
  | _ => true

lemma leads_processDequeued (props : Props) {d : Dequeued} (hd : d.isNotice = true) :
    Leads cleanupStages Live (processDequeued props d) fun _ => Live := by
  cases d with
  | adapted given =>
    refine .bind (Q := fun _ => Live) (.bind (.respond false) fun r => ?_) fun message => ?_
    · cases r.outcome with
      | panic message => exact .fail trivial
      | ok | error _ => exact .skip
    · cases message with
      | true => exact cleanupStages.leads_processMessage props
      | false => exact .skip
  | signal signal queued | gatedSignal signal =>
    refine cleanupStages.leads_processDequeued props rfl ?_
    rintro _ ⟨⟩
    cases signal <;> first | rfl | cases hd
  | _ => exact cleanupStages.leads_processDequeued props rfl (by rintro _ ⟨⟩)

lemma leads_processAll (props : Props) (hds : ∀ d ∈ ds, d.isNotice = true) :
    Leads cleanupStages Live (processAll props ds) fun _ => Live := by
  induction ds with
  | nil => exact .skip
  | cons d ds ih =>
    refine .state fun s => ?_
    cases s.stopped with
    | true => exact .skip
    | false =>
      exact .bind (leads_processDequeued props (hds d mem_cons_self)) fun _ =>
        ih fun d' hd' => hds d' (mem_cons_of_mem _ hd')

/-! ## Start and termination -/

/-- The actor is in use, or it failed to start and is stopped. -/
def Begun (s : Execution) (log : List Event) : Prop :=
  On Live s log ∨ (On NotStarted s log ∧ s.stopped = true)

lemma startActor_begun (props : Props) :
    Triple (fun _ log => log = []) (startActor props)
      (fun ok s log => if ok then Begun s log else Settled log) fun _ _ _ => True := by
  have hnil : ∀ b, Unstarted b [] := fun b =>
    ⟨fun _ _ => rfl, not_mem_nil, fun i hi => not_mem_nil hi⟩
  refine bind (Leads.build (c := cleanupStages) (P := fun _ _ log => log = [])) fun r => ?_
  cases r with
  | error reason =>
    refine bind (Q := fun _ _ log => log = []) (fun _ _ h => h) fun _ => pure ?_
    rintro s _ rfl
    exact (hnil 0).settled
  | ok i =>
    have hfresh : Triple (On fun _ b log => b = i + 1 ∧ log = [])
        (update fun s => { s with actor := i } : ActorTurn Unit) (fun _ => On Fresh)
        fun _ _ _ => True := by
      rintro s _ ⟨hb, rfl⟩
      exact ⟨hb, hnil i⟩
    refine bind hfresh fun _ => bind (Q := fun _ => On Fresh) (fun _ _ h => h) fun s =>
      bind (cleanupStages.leads_applyStartResult props _) fun r =>
        bind (fun s log h => ?_) fun _ => pure fun _ _ h => h
    cases r with
    | none => exact .inl (cleanupStages.leads_stopAfter none s log h)
    | some reason => exact .inr ⟨h, rfl⟩

lemma processAll_begun (props : Props) (hds : ∀ d ∈ ds, d.isNotice = true) :
    Triple Begun (processAll props ds) (fun _ => Begun) fun _ _ _ => True := by
  rintro s log (h | ⟨h, hs⟩)
  · exact weaken (leads_processAll props hds) (fun _ _ h => h) (fun _ _ _ h => .inl h)
      (fun _ _ _ h => h) s log h
  · cases ds with
    | nil => exact .inr ⟨h, hs⟩
    | cons d ds =>
      have hskip : processAll props (d :: ds) (s, log) = .ok () (s, log) := by
        show (if s.stopped then (pure () : ActorTurn Unit) else _) (s, log) = _
        rw [hs]
        rfl
      rw [hskip]
      exact .inr ⟨h, hs⟩

lemma terminate_settled :
    Triple Begun terminate (fun _ _ log => Settled log) fun _ _ _ => True := by
  rintro s log (h | ⟨h, -⟩)
  · have hlive : Leads cleanupStages Live terminate fun _ => Retiring :=
      cleanupStages.leads_terminate (fun _ _ _ h => h.effect rfl) fun _ _ _ h => h.cleanup rfl
    exact weaken hlive (fun _ _ h => h) (fun _ _ _ h => h.2) (fun _ _ _ h => h) s log h
  · have hnot : Leads cleanupStages NotStarted terminate fun _ => NotStarted :=
      cleanupStages.leads_terminate (fun _ _ _ h => ⟨h.1, h.2.effect rfl⟩) fun _ _ _ h =>
        ⟨h.1, h.2.call h.1 (by rintro ⟨⟩)⟩
    exact weaken hnot (fun _ _ h => h) (fun _ _ _ h => h.2.settled) (fun _ _ _ h => h) s log h

lemma runActor_settled (props : Props) (hds : ∀ d ∈ ds, d.isNotice = true) :
    Triple (fun _ log => log = []) (runActor props ds)
      (fun _ s log => s.stopped = true → Settled log) fun _ _ _ => True := by
  refine bind (startActor_begun props) fun ok => ?_
  cases ok with
  | false => exact pure fun _ _ h _ => h
  | true =>
    refine bind (processAll_begun props hds) fun _ =>
      bind (Q := fun s' s log => Begun s log ∧ s' = s) (fun s log h => ⟨h, rfl⟩) fun s => ?_
    cases hs : s.stopped with
    | true =>
      exact weaken terminate_settled (fun _ _ h => h.1) (fun _ _ _ h _ => h) fun _ _ _ h => h
    | false =>
      refine pure ?_
      rintro _ log ⟨-, rfl⟩ hstop
      rw [hs] at hstop
      cases hstop

def terminatedLog (props : Props) (ds : List Dequeued) (script : List Response) :
    Option (List Event) :=
  match runActor props ds (.new script, []) with
  | .ok _ (s, log) => if s.stopped then some log else none
  | .error .. => none

/-- **One cleanup per instance**: the started instances of a terminated actor have got one cleanup
signal, and no call after it, exactly when no restart was given up. -/
theorem cleanup_iff {props : Props} {ds : List Dequeued} (hds : ∀ d ∈ ds, d.isNotice = true)
    {script : List Response} {log : List Event} (hrun : terminatedLog props ds script = some log) :
    (∀ i, Started i log → OneCleanup (callsOf i log)) ↔ .noReplacement ∉ log := by
  have h := runActor_settled props hds (.new script) [] rfl
  unfold terminatedLog at hrun
  cases hr : runActor props ds (.new script, []) with
  | error e s =>
    rw [hr] at hrun
    cases hrun
  | ok u s =>
    rw [hr] at h hrun
    obtain ⟨s, log'⟩ := s
    dsimp only at hrun
    cases hs : s.stopped with
    | false =>
      rw [hs] at hrun
      cases hrun
    | true =>
      rw [hs, if_pos rfl] at hrun
      cases hrun
      exact (h hs).iff

namespace FailedReplacement

def props : Props := ⟨.restart, true⟩

def ok : Response := ⟨.ok, false, 0⟩

def failing : Response := ⟨.error "boom", false, 0⟩

/-- **A failed replacement**: the actor fails, gets `PreRestart`, and its replacement does not start.
The actor is stopped, and the same instance gets `PostStop`. -/
theorem cleaned_up_twice : ∃ log,
    terminatedLog props [.message] [ok, ok, failing, ok, ok, failing, ok] = some log ∧
    Started 0 log ∧
    callsOf 0 log =
      [.started true, .receive, .signal .preRestart, .signal .postStop] := by
  refine ⟨[.call 0 (.started true), .call 0 .receive, .call 0 (.signal .preRestart), .stopChildren,
    .call 1 (.started false), .noReplacement, .stopChildren, .call 0 (.signal .postStop)], ?_, ?_, ?_⟩
  · decide +kernel
  · decide
  · decide

/-- The replacement starts and is stopped later. -/
theorem cleanup_iff_restarted : ∃ log : List Event, callsOf 0 log =
      [.started true, .receive, .signal .preRestart] ∧
    ((∀ i, Started i log → OneCleanup (callsOf i log)) ↔ .noReplacement ∉ log) := by
  refine ⟨[.call 0 (.started true), .call 0 .receive, .call 0 (.signal .preRestart), .stopChildren,
    .call 1 (.started true), .call 1 .receive, .stopChildren, .call 1 (.signal .postStop)], ?_, ?_⟩
  · decide
  · exact @cleanup_iff props [.message, .message, .stop] (by decide)
      [ok, ok, failing, ok, ok, ok, ok, ok] _ (by decide +kernel)

end FailedReplacement

end Kairo.Actor
