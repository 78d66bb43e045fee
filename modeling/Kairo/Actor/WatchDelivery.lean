import Kairo.Actor.DeathWatch
import Kairo.Lib.Positions

/-!
# Notices of `watch` are not lost

A running watcher expects a notice from the moment the registry accepts its `watch`.  Until it
processes the notice, the registry or its mailbox has it: as a registration whose subject is going to
notify, as a notification under way, as a queued marker with the item that will take it, or as a gated
signal.  The one place where a notice is dropped is a user lane that is full when the notice arrives.
-/

set_option linter.unusedSectionVars false

namespace Kairo.Actor

open Kairo.Lib Finset List Function DeathWatch Prod Machine.Reach

namespace DeathWatch

variable {P : Type*} [DecidableEq P] (w : DeathWatch P)

/-- The user lane of a running watcher has room when a notice of `watch` is enqueued. -/
def HasRoom : Action P → Prop
  | .stepNotify i => ∀ r, w.notifying[i]? = some (r, .marked) → r.flavor = .watch →
    (w.actors r.watcher).stopped = true ∨ (w.actors r.watcher).isFull = false
  | _ => True

instance (x : Action P) : Decidable (w.HasRoom x) :=
  match x with
  | .stepNotify i =>
    match h : w.notifying[i]? with
    | some (r, .marked) =>
      decidable_of_iff (r.flavor = .watch →
          (w.actors r.watcher).stopped = true ∨ (w.actors r.watcher).isFull = false)
        ⟨fun hr _ hx => by cases h.symm.trans hx; exact hr, fun hr => hr r h⟩
    | some (_, .taken) | some (_, .rejected) | none => isTrue fun _ hx => by cases h.symm.trans hx
  | .tell _ | .tellSystem _ | .watch .. | .stepWatch _ | .unwatch .. | .stop _ | .close _
  | .removeWatcher _ | .terminate _ | .notify _ | .notifyMatching _ | .process _ => isTrue trivial

/-- The subject has terminated, and no notification of it is under way. -/
structure Finished (subject : P) : Prop where
  terminated : (w.actors subject).terminated = true
  notified : subject ∉ w.terminating
  delivered : ∀ e ∈ w.notifying, e.1.subject ≠ subject
  rechecked : ∀ e ∈ w.watching, e.1.subject = subject → e.2 ≠ .recheck

/-- The mailbox of the watcher has a notice of the subject that it will process. -/
def InMailbox (subject watcher : P) : Prop :=
  .gatedSignal subject ∈ (w.actors watcher).system ∨
  (subject, watcher) ∈ w.queuedSignals ∧
    (.notice subject false ∈ (w.actors watcher).user ∨ .signal subject ∈ (w.actors watcher).system)

/-- The subject is going to notify the registrations that are there. -/
def WillNotify (subject : P) : Prop :=
  (w.actors subject).terminated = false ∨ subject ∈ w.terminating ∨
    ∃ r, r.subject = subject ∧ (r, .recheck) ∈ w.watching

/-- A notification by signal of the pair at a stage. -/
def Notifying (p : P × P) (stage : NotifyStage) : Prop :=
  ∃ r : Registration P, r.pair = p ∧ r.flavor.isCustom = false ∧ (r, stage) ∈ w.notifying

/-- What takes the marker of a pair. -/
def Carried (p : P × P) : Prop :=
  w.Notifying p .marked ∨ .notice p.1 false ∈ (w.actors p.2).user ∨
    .signal p.1 ∈ (w.actors p.2).system

/-- Where the notice of an expecting watcher is. -/
def OnItsWay (p : P × P) : Prop :=
  (∃ r ∈ w.watchers, r.pair = p ∧ r.flavor.isCustom = false ∧ w.WillNotify p.1) ∨
  w.Notifying p .taken ∨ p ∈ w.queuedSignals ∨ .gatedSignal p.1 ∈ (w.actors p.2).system

/-- What every state of a run has. -/
structure Kept : Prop where
  closed : ∀ a, (w.actors a).closed = true → (w.actors a).stopped = true
  rejected : ∀ p, w.Notifying p .rejected → (w.actors p.2).stopped = true
  carried : ∀ p ∈ w.queuedSignals, (w.actors p.2).stopped = false → w.Carried p
  onItsWay : ∀ p ∈ w.expecting, (w.actors p.2).stopped = false → w.OnItsWay p

variable {w} {v : DeathWatch P} {a : P} {i : ℕ} {r : Registration P} {stage : WatchStage}
  {f : WatchActor P → WatchActor P}

/-! ## Where notices are, in an updated state -/

lemma Notifying.mono {p : P × P} {stage : NotifyStage} (h : w.Notifying p stage)
    (hs : ∀ e : Registration P × NotifyStage, e.1.flavor.isCustom = false → e.1.pair = p →
      e.2 = stage → e ∈ w.notifying → e ∈ v.notifying) : v.Notifying p stage := by
  obtain ⟨r, hr, hc, hm⟩ := h
  exact ⟨r, hr, hc, hs (r, stage) hc hr rfl hm⟩

lemma WillNotify.mono {s : P} (h : w.WillNotify s)
    (ht : (w.actors s).terminated = false → (v.actors s).terminated = false ∨ s ∈ v.terminating)
    (hn : s ∈ w.terminating → s ∈ v.terminating)
    (hw : ∀ r : Registration P, (r, .recheck) ∈ w.watching → (r, .recheck) ∈ v.watching) :
    v.WillNotify s := by
  rcases h with h | h | ⟨r, hr, hm⟩
  · rcases ht h with h | h
    · exact .inl h
    · exact .inr (.inl h)
  · exact .inr (.inl (hn h))
  · exact .inr (.inr ⟨r, hr, hw r hm⟩)

/-- The parts of an actor that a step leaves as they are for death watch. -/
structure SameNotices (x y : WatchActor P) : Prop where
  stopped : y.stopped = false → x.stopped = false
  closed : y.closed = true → y.stopped = true
  gated : ∀ s, y.stopped = false → SystemItem.gatedSignal s ∈ x.system → SystemItem.gatedSignal s ∈
    y.system
  signal : ∀ s, y.stopped = false → SystemItem.signal s ∈ x.system → SystemItem.signal s ∈ y.system
  notice : ∀ s, y.stopped = false → UserItem.notice s false ∈ x.user → UserItem.notice s false ∈ y.user
  terminated : y.terminated = x.terminated

/-- A step that changes one actor and keeps the notices there; if the actor terminates, it is going to
notify. -/
lemma Kept.modifyTerminating (h : Kept w) {ts : List P}
    (hf : SameNotices (w.actors a) { f (w.actors a) with terminated := (w.actors a).terminated })
    (hts : w.terminating ⊆ ts)
    (ht : (w.actors a).terminated = false → (f (w.actors a)).terminated = false ∨ a ∈ ts) :
    Kept { w.modify a f with terminating := ts } := by
  have hsame : ∀ b, SameNotices (w.actors b)
      { (w.modify a f).actors b with terminated := (w.actors b).terminated } := by
    intro b
    by_cases hb : b = a
    · subst hb
      rw [modify_actors_self]
      exact hf
    · rw [modify_actors_of_ne _ _ hb]
      exact ⟨id, h.closed b, fun _ _ => id, fun _ _ => id, fun _ _ => id, rfl⟩
  refine ⟨fun b => (hsame b).closed, fun p hp => ?_, fun p hp hs => ?_, fun p hp hs => ?_⟩
  · by_contra hne
    have hrun := (hsame p.2).stopped (Bool.eq_false_iff.mpr hne)
    cases hrun.symm.trans (h.rejected p hp)
  · exact (h.carried p hp ((hsame p.2).stopped hs)).imp id
      (Or.imp ((hsame p.2).notice _ hs) ((hsame p.2).signal _ hs))
  · refine (h.onItsWay p hp ((hsame p.2).stopped hs)).imp (fun ⟨r, hr, hrp, hc, hw⟩ => ?_)
      (Or.imp_right (Or.imp_right ((hsame p.2).gated _ hs)))
    refine ⟨r, hr, hrp, hc, hw.mono (fun hrun => ?_) (fun hm => hts hm) fun _ => id⟩
    by_cases hb : p.1 = a
    · rw [hb, modify_actors_self]
      rw [hb] at hrun
      exact ht hrun
    · rw [modify_actors_of_ne _ _ hb]
      exact .inl hrun

lemma Kept.modify (h : Kept w) (hf : SameNotices (w.actors a) (f (w.actors a))) :
    Kept (w.modify a f) :=
  h.modifyTerminating { hf with terminated := rfl } (List.Subset.refl _) fun hrun =>
    .inl (hf.terminated.trans hrun)

/-! ## Calls of watch -/

/-- A watch call that ends or moves on, other than from looking at the subject again. -/
lemma Kept.watching (h : Kept w) {calls : List (Registration P × WatchStage)}
    (hc : ∀ r : Registration P, (r, .recheck) ∈ w.watching → (r, .recheck) ∈ calls) :
    Kept { w with watching := calls } where
  closed := h.closed
  rejected := h.rejected
  carried := h.carried
  onItsWay p hp hs := (h.onItsWay p hp hs).imp_left fun ⟨r, hr, hrp, hk, hw⟩ =>
    ⟨r, hr, hrp, hk, hw.mono .inl id hc⟩

lemma mem_watching_of_ne
    (hi : w.watching[i]? = some (r, stage)) (hs : stage ≠ .recheck) (e : Registration P × WatchStage)
    (q : Registration P) (hq : (q, .recheck) ∈ w.watching) :
    (q, .recheck) ∈ w.watching.eraseIdx i ∧ (q, .recheck) ∈ w.watching.set i e := by
  have hne : (q, WatchStage.recheck) ≠ (r, stage) := fun he => hs (congrArg snd he).symm
  exact ⟨mem_eraseIdx_of_ne hi hne hq, mem_set_of_ne hi hne hq⟩

/-- **An accepted watch** expects a notice that is on its way. -/
theorem Kept.acceptWatch (h : Kept w)
    (hi : w.watching[i]? = some (r, stage)) (hs : stage ≠ .recheck)
    (hr : r.flavor = .watch → r.pair ∈ w.queuedSignals ∨
      ∃ q ∈ w.watchers, q.pair = r.pair ∧ q.flavor.isCustom = false) :
    Kept (w.acceptWatch i r) := by
  have hcalls : ∀ q : Registration P, (q, .recheck) ∈ w.watching →
      (q, .recheck) ∈ (w.acceptWatch i r).watching := by
    intro q hq
    have hm := mem_watching_of_ne hi hs (r, .recheck) q hq
    rw [DeathWatch.acceptWatch]
    split
    · exact hm.1
    · exact hm.2
  have hk := h.watching hcalls
  refine ⟨hk.closed, hk.rejected, hk.carried, fun p hp hst => ?_⟩
  by_cases hf : r.flavor = .watch
  · rw [DeathWatch.acceptWatch] at hp
    rw [if_pos hf] at hp
    rcases mem_insert.mp hp with rfl | hp
    · rcases hr hf with hq | ⟨q, hq, hqp, hqc⟩
      · exact .inr (.inr (.inl hq))
      · refine .inl ⟨q, hq, hqp, hqc, .inr (.inr ⟨r, rfl, ?_⟩)⟩
        rw [DeathWatch.acceptWatch]
        rw [if_neg (by rw [hf]; decide)]
        exact mem_set_self hi
    · exact hk.onItsWay p hp hst
  · rw [DeathWatch.acceptWatch] at hp
    rw [if_neg hf] at hp
    exact hk.onItsWay p hp hst

lemma Kept.takeRegistrations (h : Kept w) (predicate : P → Bool)
    (hv : v.notifying = w.notifying ∧ v.watchers = w.watchers ∧ v.actors = w.actors ∧
      v.queuedSignals = w.queuedSignals ∧ v.expecting = w.expecting)
    (hw : ∀ s, predicate s = false → w.WillNotify s → v.WillNotify s) :
    Kept (v.takeRegistrations predicate) := by
  obtain ⟨hn, hwa, ha, hq, he⟩ := hv
  have hmem : ∀ {p : P × P} {stage : NotifyStage}, w.Notifying p stage →
      (v.takeRegistrations predicate).Notifying p stage :=
    fun hp => hp.mono fun e _ _ _ hm => mem_append_left _ (hn ▸ hm)
  refine ⟨?_, fun p hp => ?_, fun p hp hs => ?_, fun p hp hs => ?_⟩
  · show ∀ a, (v.actors a).closed = true → (v.actors a).stopped = true
    rw [ha]
    exact h.closed
  · obtain ⟨r, hrp, hrc, hm⟩ := hp
    rcases mem_append.mp hm with hm | hm
    · show (v.actors p.2).stopped = true
      rw [ha]
      exact h.rejected p ⟨r, hrp, hrc, hn ▸ hm⟩
    · obtain ⟨_, _, hc⟩ := mem_map.mp hm
      cases hc
  · have hs' : (w.actors p.2).stopped = false := ha ▸ hs
    refine (h.carried p (hq ▸ hp) hs').imp hmem ?_
    show _ → _ ∈ (v.actors p.2).user ∨ _ ∈ (v.actors p.2).system
    rw [ha]
    exact id
  · have hs' : (w.actors p.2).stopped = false := ha ▸ hs
    rcases h.onItsWay p (he ▸ hp) hs' with ⟨r, hr, hrp, hc, hwill⟩ | hway | hway | hway
    · cases hpred : predicate r.subject with
      | true =>
        refine .inr (.inl ⟨r, hrp, hc, mem_append_right _ (mem_map.mpr ⟨r, ?_, rfl⟩)⟩)
        exact mem_filter.mpr ⟨hwa ▸ hr, hpred⟩
      | false =>
        refine .inl ⟨r, mem_filter.mpr ⟨hwa ▸ hr, by rw [hpred]; rfl⟩, hrp, hc, ?_⟩
        have hsubject : r.subject = p.1 := congrArg fst hrp
        exact hw p.1 (hsubject ▸ hpred) hwill
    · exact .inr (.inl (hmem hway))
    · exact .inr (.inr (.inl (hq ▸ hway)))
    · refine .inr (.inr (.inr ?_))
      show _ ∈ (v.actors p.2).system
      rw [ha]
      exact hway

lemma Kept.watchStep (h : Kept w)
    (hi : w.watching[i]? = some (r, stage)) : Kept (w.watchStep i r stage) := by
  cases stage with
  | checkOwn =>
    rw [watchStep]
    split
    · rename_i hq
      refine h.acceptWatch hi nofun fun hf => .inl ?_
      rw [hf] at hq
      exact hq
    · exact h.watching fun q hq => (mem_watching_of_ne hi nofun _ q hq).2
  | checkOther =>
    rw [watchStep]
    split
    · exact h.watching fun q hq => (mem_watching_of_ne hi nofun (r, .recheck) q hq).1
    · exact h.watching fun q hq => (mem_watching_of_ne hi nofun _ q hq).2
  | register =>
    rw [watchStep]
    split
    · rename_i q hq
      have hqp : q.pair = r.pair := by simpa using find?_some hq
      split
      · rename_i hk
        refine h.acceptWatch hi nofun fun _ => .inr ⟨q, mem_of_find?_eq_some hq, hqp, ?_⟩
        simpa using And.left (by simpa using hk)
      · exact h.watching fun q hq => (mem_watching_of_ne hi nofun (r, .recheck) q hq).1
    · have hadd : Kept { w with watchers := w.watchers ++ [r] } :=
        { h with onItsWay := fun p hp hs => (h.onItsWay p hp hs).imp_left fun ⟨q, hq, hrest⟩ =>
            ⟨q, mem_append_left _ hq, hrest⟩ }
      refine hadd.acceptWatch hi nofun fun hf => .inr ⟨r, ?_, rfl, ?_⟩
      · exact mem_concat_self
      · rw [hf]
        rfl
  | recheck =>
    rw [watchStep]
    by_cases ht : (w.actors r.subject).terminated
    · rw [if_pos ht]
      refine h.takeRegistrations _ ⟨rfl, rfl, rfl, rfl, rfl⟩ fun s hs hw => ?_
      rcases hw with hw | hw | ⟨q, hqs, hq⟩
      · exact .inl hw
      · exact .inr (.inl hw)
      · refine .inr (.inr ⟨q, hqs, mem_eraseIdx_of_ne hi ?_ hq⟩)
        rintro ⟨⟩
        exact of_decide_eq_false hs hqs.symm
    · rw [if_neg ht]
      refine { h with onItsWay := fun p hp hs => ?_ }
      refine (h.onItsWay p hp hs).imp_left fun ⟨q, hq, hqp, hc, hw⟩ => ⟨q, hq, hqp, hc, ?_⟩
      rcases hw with hw | hw | ⟨q', hqs, hq'⟩
      · exact .inl hw
      · exact .inr (.inl hw)
      · by_cases he : q' = r
        · subst he
          rw [hqs] at ht
          exact .inl (Bool.eq_false_iff.mpr ht)
        · exact .inr (.inr ⟨q', hqs,
            mem_eraseIdx_of_ne hi (fun heq => he (congrArg fst heq)) hq'⟩)

/-! ## Notifications -/

section

variable (h : Kept w)

include h

/-- Markers of the kind `Custom` play no part. -/
lemma Kept.setQueued_custom (s : Finset (P × P)) : Kept (w.setQueued true s) :=
  { h with }

lemma Kept.markTaken (hi : w.notifying[i]? = some (r, .taken)) :
    Kept (w.notifyStep i r .taken) := by
  have hold : ∀ e ∈ w.notifying, e ≠ (r, .taken) → e ∈ w.notifying.set i (r, .marked) :=
    fun e he hne => mem_set_of_ne hi hne he
  have hrejected : ∀ p, (∃ q : Registration P, q.pair = p ∧ q.flavor.isCustom = false ∧
      (q, .rejected) ∈ w.notifying.set i (r, .marked)) → (w.actors p.2).stopped = true := by
    rintro p ⟨q, hqp, hqc, hq⟩
    rcases mem_or_eq_of_mem_set hq with hq | hq
    · exact h.rejected p ⟨q, hqp, hqc, hq⟩
    · cases hq
  rw [notifyStep]
  cases hk : r.flavor.isCustom with
  | true =>
    refine ⟨h.closed, hrejected, fun p hp hs => ?_, fun p hp hs => ?_⟩
    · exact (h.carried p hp hs).imp_left fun hn => hn.mono fun e _ _ he hm => hold e hm fun hr => by
        rw [hr] at he
        cases he
    · refine (h.onItsWay p hp hs).imp_right (Or.imp_left fun hn => hn.mono fun e hc _ _ hm => ?_)
      refine hold e hm fun hr => ?_
      rw [hr, hk] at hc
      cases hc
  | false =>
    refine ⟨h.closed, hrejected, fun p hp hs => ?_, fun p hp hs => ?_⟩
    · rcases mem_insert.mp hp with rfl | hp
      · exact .inl ⟨r, rfl, hk, mem_set_self hi⟩
      · exact (h.carried p hp hs).imp_left fun hn => hn.mono fun e _ _ he hm => hold e hm fun hr => by
          rw [hr] at he
          cases he
    · rcases h.onItsWay p hp hs with hway | ⟨q, hqp, hqc, hq⟩ | hway | hway
      · exact .inl hway
      · by_cases hqr : q = r
        · subst hqr
          exact .inr (.inr (.inl (mem_insert.mpr (.inl hqp.symm))))
        · exact .inr (.inl ⟨q, hqp, hqc, hold _ hq fun he => hqr (congrArg fst he)⟩)
      · exact .inr (.inr (.inl (mem_insert_of_mem hway)))
      · exact .inr (.inr (.inr hway))

/-- A notification that leaves its place after its marker was queued, for an item in the mailbox or
because the watcher is stopped. -/
lemma Kept.leaveMarked (hi : w.notifying[i]? = some (r, .marked))
    {calls : List (Registration P × NotifyStage)}
    (hold : ∀ e ∈ w.notifying, e ≠ (r, .marked) → e ∈ calls)
    (hnew : ∀ q : Registration P, q.flavor.isCustom = false → (q, .rejected) ∈ calls →
      (q, .rejected) ∈ w.notifying ∨ (w.actors q.watcher).stopped = true)
    (hr : r.flavor.isCustom = false → (w.actors r.watcher).stopped = false →
      .notice r.subject false ∈ (w.actors r.watcher).user ∨
        .signal r.subject ∈ (w.actors r.watcher).system) : Kept { w with notifying := calls } := by
  refine ⟨h.closed, ?_, fun p hp hs => ?_, fun p hp hs => ?_⟩
  · rintro p ⟨q, rfl, hqc, hq⟩
    rcases hnew q hqc hq with hq | hq
    · exact h.rejected _ ⟨q, rfl, hqc, hq⟩
    · exact hq
  · rcases h.carried p hp hs with ⟨q, hqp, hqc, hq⟩ | hcar
    · by_cases hqr : q = r
      · subst hqr
        subst hqp
        exact .inr (hr hqc hs)
      · exact .inl ⟨q, hqp, hqc, hold _ hq fun he => hqr (congrArg fst he)⟩
    · exact .inr hcar
  · refine (h.onItsWay p hp hs).imp_right (Or.imp_left fun hn => hn.mono fun e _ _ he hm => ?_)
    refine hold e hm fun her => ?_
    rw [her] at he
    cases he

lemma Kept.finishMarked (hi : w.notifying[i]? = some (r, .marked))
    (hr : r.flavor.isCustom = false → (w.actors r.watcher).stopped = false →
      .notice r.subject false ∈ (w.actors r.watcher).user ∨
        .signal r.subject ∈ (w.actors r.watcher).system) :
    Kept { w with notifying := w.notifying.eraseIdx i } :=
  h.leaveMarked hi (fun _ he hne => mem_eraseIdx_of_ne hi hne he)
    (fun _ _ he => .inl (mem_of_mem_eraseIdx he)) hr

lemma Kept.appendUser (a : P) (item : UserItem P) :
    Kept (w.modify a fun x => { x with user := x.user ++ [item] }) :=
  h.modify ⟨id, h.closed a, fun _ _ => id, fun _ _ => id,
    fun _ _ hm => mem_append_left _ hm, rfl⟩

lemma Kept.appendSystem (a : P) (item : SystemItem P) :
    Kept (w.modify a fun x => { x with system := x.system ++ [item] }) :=
  h.modify ⟨id, h.closed a, fun _ _ hm => mem_append_left _ hm,
    fun _ _ hm => mem_append_left _ hm, fun _ _ => id, rfl⟩

lemma Kept.enqueueNotice (hi : w.notifying[i]? = some (r, .marked))
    (hroom : w.HasRoom (.stepNotify i)) : Kept (w.enqueueNotice i r) := by
  unfold DeathWatch.enqueueNotice
  dsimp only
  split
  · split
    · rename_i hst
      refine h.finishMarked hi fun _ hs => ?_
      rw [hs, Bool.false_or] at hst
      cases hs.symm.trans (h.closed _ hst)
    · refine (h.appendSystem r.watcher (.signal r.subject)).finishMarked hi fun _ _ => .inr ?_
      rw [modify_actors_self]
      exact mem_concat_self
  · rename_i hpath
    split
    · rename_i hst
      rw [Bool.and_eq_true] at hst
      refine Kept.setQueued_custom (h.finishMarked hi fun hc => ?_) _
      cases hc.symm.trans hst.1
    · split
      · rename_i hrej
        have hstopped : r.flavor.isCustom = false → (w.actors r.watcher).stopped = true := by
          intro hc
          have hf : r.flavor = .watch := by
            cases hr : r.flavor with
            | watch => rfl
            | watchWith => rw [hr] at hc; cases hc
            | watchPath => exact absurd hr hpath
          rcases hroom r hi hf with hs | hfull
          · exact hs
          · rw [hfull, Bool.or_false] at hrej
            exact h.closed _ hrej
        refine h.leaveMarked hi (fun _ he hne => mem_set_of_ne hi hne he) (fun q hqc hq => ?_)
          fun hc hs => by cases hs.symm.trans (hstopped hc)
        rcases mem_or_eq_of_mem_set hq with hq | hq
        · exact .inl hq
        · cases hq
          exact .inr (hstopped hqc)
      · refine (h.appendUser r.watcher (.notice r.subject r.flavor.isCustom)).finishMarked hi
          fun hc _ => .inl ?_
        rw [modify_actors_self, hc]
        exact mem_concat_self

lemma Kept.notifyStep {stage : NotifyStage} (hi : w.notifying[i]? = some (r, stage))
    (hroom : w.HasRoom (.stepNotify i)) : Kept (w.notifyStep i r stage) := by
  cases stage with
  | taken => exact h.markTaken hi
  | marked => exact h.enqueueNotice hi hroom
  | rejected =>
    have hdone : Kept { w with notifying := w.notifying.eraseIdx i } := by
      have hold : ∀ e ∈ w.notifying, e.2 ≠ .rejected → e ∈ w.notifying.eraseIdx i :=
        fun e he hne => mem_eraseIdx_of_ne hi (fun her => hne (congrArg snd her)) he
      refine ⟨h.closed, ?_, fun p hp hs => ?_, fun p hp hs => ?_⟩
      · rintro p ⟨q, hqp, hqc, hq⟩
        exact h.rejected p ⟨q, hqp, hqc, mem_of_mem_eraseIdx hq⟩
      · exact (h.carried p hp hs).imp_left fun hn =>
          hn.mono fun e _ _ he hm => hold e hm (by rw [he]; decide)
      · exact (h.onItsWay p hp hs).imp_right (Or.imp_left fun hn =>
          hn.mono fun e _ _ he hm => hold e hm (by rw [he]; decide))
    rw [DeathWatch.notifyStep]
    cases hc : r.flavor.isCustom with
    | true => exact hdone.setQueued_custom _
    | false =>
      -- the watcher of a rejected notice is stopped, and nothing is asked for its marker
      have hstopped : (w.actors r.watcher).stopped = true :=
        h.rejected r.pair ⟨r, rfl, hc, mem_of_getElem? hi⟩
      refine ⟨hdone.closed, hdone.rejected,
        fun p hp hs => hdone.carried p (mem_of_mem_erase hp) hs, fun p hp hs => ?_⟩
      refine (hdone.onItsWay p hp hs).imp_right (Or.imp_right (Or.imp_left fun hq => ?_))
      refine mem_erase.mpr ⟨?_, hq⟩
      rintro rfl
      cases hs.symm.trans hstopped

end

/-! ## Processing -/

/-- A step of the watcher `a` that uses items of the subject `s` only. -/
lemma Kept.atPair (h : Kept w) {a s : P} {x : WatchActor P}
    (hactors : v.actors = update w.actors a x)
    (hflags : x.stopped = (w.actors a).stopped ∧ x.closed = (w.actors a).closed ∧
      x.terminated = (w.actors a).terminated)
    (hkept : v.watchers = w.watchers ∧ v.notifying = w.notifying ∧ v.watching = w.watching ∧
      v.terminating = w.terminating)
    (hgated : ∀ t, t ≠ s → .gatedSignal t ∈ (w.actors a).system → .gatedSignal t ∈ x.system)
    (hsignal : ∀ t, t ≠ s → .signal t ∈ (w.actors a).system → .signal t ∈ x.system)
    (hnotice : ∀ t, t ≠ s → .notice t false ∈ (w.actors a).user → .notice t false ∈ x.user)
    (hqueued : ∀ p, p ≠ (s, a) → (p ∈ v.queuedSignals ↔ p ∈ w.queuedSignals))
    (hexpecting : ∀ p, p ≠ (s, a) → p ∈ v.expecting → p ∈ w.expecting)
    (hcarried : (s, a) ∈ v.queuedSignals → (w.actors a).stopped = false →
      w.Notifying (s, a) .marked ∨ .notice s false ∈ x.user ∨ .signal s ∈ x.system)
    (hway : (s, a) ∈ v.expecting → (w.actors a).stopped = false →
      (∃ r ∈ w.watchers, r.pair = (s, a) ∧ r.flavor.isCustom = false ∧ w.WillNotify s) ∨
      w.Notifying (s, a) .taken ∨ (s, a) ∈ v.queuedSignals ∨ .gatedSignal s ∈ x.system) :
    Kept v := by
  obtain ⟨hwatchers, hnotifying, hwatching, hterminating⟩ := hkept
  have hself : v.actors a = x := by rw [hactors, update_self]
  have hother : ∀ b, b ≠ a → v.actors b = w.actors b := by
    intro b hb
    rw [hactors, update_of_ne hb]
  have hflags : ∀ b, (v.actors b).stopped = (w.actors b).stopped ∧
      (v.actors b).closed = (w.actors b).closed ∧
      (v.actors b).terminated = (w.actors b).terminated := by
    intro b
    by_cases hb : b = a
    · rw [hb, hself]
      exact hflags
    · rw [hother b hb]
      exact ⟨rfl, rfl, rfl⟩
  have hwill : ∀ t, w.WillNotify t → v.WillNotify t := fun t ht =>
    ht.mono (fun hf => .inl ((hflags t).2.2.trans hf)) (fun hm => hterminating ▸ hm)
      fun _ hm => hwatching ▸ hm
  have hreg : ∀ p : P × P, (∃ r ∈ w.watchers, r.pair = p ∧ r.flavor.isCustom = false ∧
      w.WillNotify p.1) → ∃ r ∈ v.watchers, r.pair = p ∧ r.flavor.isCustom = false ∧
      v.WillNotify p.1 := fun p ⟨r, hr, hrp, hc, hw⟩ => ⟨r, hwatchers ▸ hr, hrp, hc, hwill _ hw⟩
  have hnot : ∀ {p : P × P} {stage : NotifyStage}, w.Notifying p stage ↔ v.Notifying p stage := by
    intro p stage
    rw [Notifying, Notifying, hnotifying]
  refine ⟨fun b hb => ?_, fun p hp => ?_, fun p hp hs => ?_, fun p hp hs => ?_⟩
  · rw [(hflags b).1]
    exact h.closed b ((hflags b).2.1 ▸ hb)
  · rw [(hflags p.2).1]
    exact h.rejected p (hnot.mpr hp)
  · rw [(hflags p.2).1] at hs
    by_cases hps : p = (s, a)
    · subst hps
      refine (hcarried hp hs).imp hnot.mp ?_
      rw [hself]
      exact id
    · refine (h.carried p ((hqueued p hps).mp hp) hs).imp hnot.mp fun hm => ?_
      by_cases hpa : p.2 = a
      · have ht : p.1 ≠ s := fun hp1 => hps (Prod.ext hp1 hpa)
        rw [hpa] at hm ⊢
        rw [hself]
        exact hm.imp (hnotice p.1 ht) (hsignal p.1 ht)
      · rw [hother _ hpa]
        exact hm
  · rw [(hflags p.2).1] at hs
    by_cases hps : p = (s, a)
    · subst hps
      refine (hway hp hs).imp (hreg _) (Or.imp hnot.mp (Or.imp_right fun hm => ?_))
      rw [hself]
      exact hm
    · refine (h.onItsWay p (hexpecting p hps hp) hs).imp (hreg _)
        (Or.imp hnot.mp (Or.imp (hqueued p hps).mpr fun hm => ?_))
      by_cases hpa : p.2 = a
      · have ht : p.1 ≠ s := fun hp1 => hps (Prod.ext hp1 hpa)
        rw [hpa] at hm ⊢
        rw [hself]
        exact hgated p.1 ht hm
      · rw [hother _ hpa]
        exact hm

lemma mem_of_cons_ne {α : Type*} {x y : α} {l l' : List α} (hl : l = x :: l') (hy : y ≠ x)
    (hm : y ∈ l) : y ∈ l' := by
  rw [hl] at hm
  exact (mem_cons.mp hm).resolve_left hy

lemma Kept.processSystem (h : Kept w) {item : SystemItem P} {items : List (SystemItem P)}
    (hi : (w.actors a).system = item :: items) :
    Kept ((w.modify a fun x => { x with system := items }).processSystem a item) := by
  cases item with
  | other =>
    refine h.modify (f := fun x => { x with system := items }) ⟨id, h.closed a,
      fun _ _ => mem_of_cons_ne hi ?_, fun _ _ => mem_of_cons_ne hi ?_, fun _ _ => id, rfl⟩
    all_goals rintro ⟨⟩
  | gatedSignal subject =>
    refine h.atPair rfl ⟨rfl, rfl, rfl⟩
      ⟨rfl, rfl, rfl, rfl⟩ (fun t ht => mem_of_cons_ne hi ?_) (fun t ht => mem_of_cons_ne hi ?_)
      (fun _ _ => id) (fun _ _ => Iff.rfl) (fun _ _ => mem_of_mem_erase) (fun hq hs => ?_)
      fun he => absurd he (notMem_erase _ _)
    · rintro ⟨⟩
      exact ht rfl
    · rintro ⟨⟩
    · refine (h.carried _ hq hs).imp_right (Or.imp_right (mem_of_cons_ne hi ?_))
      rintro ⟨⟩
  | signal subject =>
    have hgated : ∀ t, .gatedSignal t ∈ (w.actors a).system → .gatedSignal t ∈ items := by
      refine fun t => mem_of_cons_ne hi ?_
      rintro ⟨⟩
    have hsignal : ∀ t, t ≠ subject → .signal t ∈ (w.actors a).system → .signal t ∈ items := by
      refine fun t ht => mem_of_cons_ne hi ?_
      rintro ⟨⟩
      exact ht rfl
    rw [DeathWatch.processSystem]
    by_cases hq : (subject, a) ∈ w.queuedSignals
    · rw [if_pos (show (subject, a) ∈ (w.modify a _).queuedSignals from hq)]
      refine h.atPair
        (x := { w.actors a with system := items, receiving := some subject }) ?_ ⟨rfl, rfl, rfl⟩
        ⟨rfl, rfl, rfl, rfl⟩ (fun t _ => hgated t) hsignal (fun _ _ => id)
        (fun p hp => mem_erase.trans (and_iff_right hp))
        (fun _ _ => mem_of_mem_erase) (fun hm => absurd hm (notMem_erase _ _))
        fun he => absurd he (notMem_erase _ _)
      exact w.modify_modify a (fun x => { x with system := items })
        fun x => { x with receiving := some subject }
    · rw [if_neg (show (subject, a) ∉ (w.modify a _).queuedSignals from hq)]
      refine h.atPair rfl ⟨rfl, rfl, rfl⟩
        ⟨rfl, rfl, rfl, rfl⟩ (fun t _ => hgated t) hsignal (fun _ _ => id) (fun _ _ => Iff.rfl)
        (fun _ _ => id) (fun hm => absurd hm hq) fun he hs => ?_
      exact (h.onItsWay _ he hs).imp_right (Or.imp_right (Or.imp_right (hgated subject)))

lemma Kept.processUser (h : Kept w) {item : UserItem P} {items : List (UserItem P)}
    (hi : (w.actors a).user = item :: items) :
    Kept ((w.modify a fun x => { x with user := items }).processUser a item) := by
  have hdrop : (∀ s, item ≠ .notice s false) →
      Kept (w.modify a fun x => { x with user := items }) := fun hne =>
    h.modify ⟨id, h.closed a, fun _ _ => id, fun _ _ => id,
      fun s _ => mem_of_cons_ne hi (hne s).symm, rfl⟩
  cases item with
  | message => exact hdrop nofun
  | notice subject custom =>
    cases custom with
    | false =>
      have hnotice : ∀ t, t ≠ subject → .notice t false ∈ (w.actors a).user →
          .notice t false ∈ items := by
        refine fun t ht => mem_of_cons_ne hi ?_
        rintro ⟨⟩
        exact ht rfl
      rw [DeathWatch.processUser]
      by_cases hq : (subject, a) ∈ w.queuedSignals
      · rw [if_pos (show (subject, a) ∈ (w.modify a _).queuedSignals from hq)]
        refine h.atPair (x := { w.actors a with
            user := items, system := (w.actors a).system ++ [.gatedSignal subject] })
          ?_ ⟨rfl, rfl, rfl⟩ ⟨rfl, rfl, rfl, rfl⟩ (fun _ _ => mem_append_left _)
          (fun _ _ => mem_append_left _) hnotice
          (fun p hp => mem_erase.trans (and_iff_right hp)) (fun _ _ => id)
          (fun hm => absurd hm (notMem_erase _ _)) fun _ _ => .inr (.inr (.inr ?_))
        · exact w.modify_modify a (fun x => { x with user := items })
            fun x => { x with system := x.system ++ [.gatedSignal subject] }
        · exact mem_concat_self
      · rw [if_neg (show (subject, a) ∉ (w.modify a _).queuedSignals from hq)]
        exact h.atPair rfl ⟨rfl, rfl, rfl⟩
          ⟨rfl, rfl, rfl, rfl⟩ (fun _ _ => id) (fun _ _ => id) hnotice (fun _ _ => Iff.rfl)
          (fun _ _ => id) (fun hm => absurd hm hq) fun he hs => h.onItsWay _ he hs
    | true =>
      have hk := hdrop nofun
      rw [DeathWatch.processUser]
      split
      · have hcustoms : Kept { w.modify a (fun x => { x with user := items }) with
            queuedCustoms := w.queuedCustoms.erase (subject, a) } := { hk with }
        exact hcustoms.modify ⟨id, hcustoms.closed a, fun _ _ => id, fun _ _ => id, fun _ _ => id, rfl⟩
      · exact hk

lemma Kept.processNext (h : Kept w) (a : P) : Kept (w.processNext a) := by
  unfold DeathWatch.processNext
  split
  · have hk : Kept (w.modify a fun x => { x with receiving := none }) :=
      h.modify ⟨id, h.closed a, fun _ _ => id, fun _ _ => id, fun _ _ => id, rfl⟩
    exact { hk with }
  · rename_i hs
    exact h.processSystem hs
  · rename_i hu
    exact h.processUser hu
  · exact h

/-! ## The step and the run -/

lemma Kept.unwatch (h : Kept w) {subject watcher : P}
    (ht : w.step (.unwatch subject watcher) = some v) : Kept v := by
  cases ht
  refine ⟨h.closed, h.rejected, fun p hp hs => h.carried p (mem_of_mem_erase hp) hs,
    fun p hp hs => ?_⟩
  obtain ⟨hne, he⟩ := mem_erase.mp hp
  refine (h.onItsWay p he hs).imp (fun ⟨r, hr, hrp, hc, hw⟩ => ?_)
    (Or.imp_right (Or.imp_left fun hm => mem_erase.mpr ⟨hne, hm⟩))
  refine ⟨r, mem_filter.mpr ⟨hr, ?_⟩, hrp, hc, hw⟩
  rw [hrp]
  exact decide_eq_true hne

lemma Kept.removeWatcher (h : Kept w) (ha : (w.actors a).stopped = true) : Kept { w with
      watchers := w.watchers.filter (·.watcher ≠ a)
      queuedSignals := w.queuedSignals.filter (·.2 ≠ a)
      queuedCustoms := w.queuedCustoms.filter (·.2 ≠ a) } := by
  refine ⟨h.closed, h.rejected, fun p hp hs => h.carried p (mem_filter.mp hp).1 hs,
    fun p hp hs => ?_⟩
  have hne : p.2 ≠ a := by
    rintro rfl
    cases hs.symm.trans ha
  refine (h.onItsWay p hp hs).imp (fun ⟨r, hr, hrp, hc, hw⟩ => ?_)
    (Or.imp_right (Or.imp_left fun hm => mem_filter.mpr ⟨hm, hne⟩))
  refine ⟨r, mem_filter.mpr ⟨hr, decide_eq_true ?_⟩, hrp, hc, hw⟩
  rwa [show r.watcher = p.2 from congrArg snd hrp]

lemma Kept.step (h : Kept w) {x : Action P} (hroom : w.HasRoom x) (ht : w.step x = some v) :
    Kept v := by
  cases x with
  | tell a =>
    rw [DeathWatch.step] at ht
    split at ht <;> cases ht
    · exact h
    · exact h.appendUser a .message
  | tellSystem a =>
    rw [DeathWatch.step] at ht
    split at ht <;> cases ht
    · exact h
    · exact h.appendSystem a .other
  | watch subject watcher flavor =>
    rw [DeathWatch.step] at ht
    split at ht
    · cases ht
    · cases ht
      exact h.watching fun _ hm => mem_append_left _ hm
  | stepWatch i =>
    obtain ⟨⟨r, stage⟩, hi, rfl⟩ := Option.map_eq_some_iff.mp ht
    exact h.watchStep hi
  | unwatch subject watcher => exact h.unwatch ht
  | stop a =>
    cases ht
    exact h.modify ⟨nofun, fun _ => rfl, nofun, nofun, nofun, rfl⟩
  | close a =>
    rw [DeathWatch.step] at ht
    split at ht
    · rename_i hs
      cases ht
      have hrun : (w.actors a).stopped = false → False := fun hf => by cases hf.symm.trans hs
      exact h.modify ⟨id, fun _ => hs, fun _ hf => (hrun hf).elim, fun _ hf => (hrun hf).elim,
        fun _ hf => (hrun hf).elim, rfl⟩
    · cases ht
  | removeWatcher a =>
    rw [DeathWatch.step] at ht
    split at ht
    · rename_i hclosed
      cases ht
      have hk := h.modify (f := fun x => { x with detached := true })
        ⟨id, h.closed a, fun _ _ => id, fun _ _ => id, fun _ _ => id, rfl⟩
      refine hk.removeWatcher ?_
      rw [modify_actors_self]
      exact h.closed a hclosed
    · cases ht
  | terminate a =>
    rw [DeathWatch.step] at ht
    split at ht
    · cases ht
      exact h.modifyTerminating ⟨id, h.closed a, fun _ _ => id, fun _ _ => id, fun _ _ => id, rfl⟩
        (subset_append_left _ _)
        fun _ => .inr mem_concat_self
    · cases ht
  | notify i =>
    obtain ⟨subject, hi, rfl⟩ := Option.map_eq_some_iff.mp ht
    refine h.takeRegistrations _ ⟨rfl, rfl, rfl, rfl, rfl⟩ fun s hs hw => ?_
    refine hw.imp_right (Or.imp_left fun hm => mem_eraseIdx_of_ne hi ?_ hm)
    exact of_decide_eq_false hs
  | notifyMatching predicate =>
    cases ht
    exact h.takeRegistrations _ ⟨rfl, rfl, rfl, rfl, rfl⟩ fun _ _ => id
  | stepNotify i =>
    obtain ⟨⟨r, stage⟩, hi, rfl⟩ := Option.map_eq_some_iff.mp ht
    exact h.notifyStep hi hroom
  | process a =>
    rw [DeathWatch.step] at ht
    split at ht
    · cases ht
    · cases ht
      exact h.processNext a

lemma kept_start (userCapacity : P → Option ℕ) : Kept (start userCapacity) := by
  refine ⟨fun _ hc => ?_, ?_, fun _ hp => absurd hp (notMem_empty _),
    fun _ hp => absurd hp (notMem_empty _)⟩
  · cases hc
  · rintro _ ⟨_, _, _, hm⟩
    cases hm

lemma Kept.inMailbox (h : Kept w) {subject watcher : P} (he : (subject, watcher) ∈ w.expecting)
    (hs : (w.actors watcher).stopped = false) (hf : w.Finished subject) :
    w.InMailbox subject watcher := by
  have hnone : ∀ stage, ¬ w.Notifying (subject, watcher) stage := by
    rintro stage ⟨r, hr, _, hm⟩
    exact hf.delivered _ hm (congrArg fst hr)
  rcases h.onItsWay _ he hs with ⟨r, _, _, _, hw⟩ | hm | hm | hm
  · rcases hw with hw | hw | ⟨q, hq, hm⟩
    · cases hw.symm.trans hf.terminated
    · exact absurd hw hf.notified
    · exact absurd rfl (hf.rechecked _ hm hq)
  · exact absurd hm (hnone _)
  · exact .inr ⟨hm, (h.carried _ hm hs).resolve_left (hnone _)⟩
  · exact .inl hm

/-- **No notice is lost.**  In every run in which a running watcher has room in its user lane when a
notice of `watch` is enqueued: once a subject has terminated and notified, every running actor whose
`watch` was accepted, which has not unwatched it and has not processed the notice, has the notice in
its mailbox. -/
theorem watch_not_lost {userCapacity : P → Option ℕ}
    (h : (machine userCapacity).Reach HasRoom w) {subject watcher : P}
    (he : (subject, watcher) ∈ w.expecting) (hs : (w.actors watcher).stopped = false)
    (hf : w.Finished subject) : w.InMailbox subject watcher :=
  (invariant (fun _ h0 => h0 ▸ kept_start userCapacity)
    (fun _ _ _ hi hr ht => Kept.step hi hr ht) h).inMailbox he hs hf

/-! ## A full user lane -/

instance (subject : P) : Decidable (w.Finished subject) :=
  decidable_of_iff ((w.actors subject).terminated = true ∧ subject ∉ w.terminating ∧
      (∀ e ∈ w.notifying, e.1.subject ≠ subject) ∧
      ∀ e ∈ w.watching, e.1.subject = subject → e.2 ≠ .recheck)
    ⟨fun ⟨h1, h2, h3, h4⟩ => ⟨h1, h2, h3, h4⟩, fun h => ⟨h.1, h.2, h.3, h.4⟩⟩

instance (subject watcher : P) : Decidable (w.InMailbox subject watcher) :=
  inferInstanceAs (Decidable (_ ∨ _))

/-- Actor `true` watches actor `false`, which terminates and notifies; the first action fills the
mailbox of the watcher, where that is bounded by one. -/
def fullLane : List (Action Bool) :=
  [.tell true, .watch false true .watch, .stepWatch 0, .stepWatch 0, .stepWatch 0, .stepWatch 0,
    .stop false, .close false, .removeWatcher false, .terminate false, .notify 0, .stepNotify 0,
    .stepNotify 0, .stepNotify 0]

/-- The notice is neither processed nor in the mailbox of the running watcher. -/
theorem notice_lost :
    ∃ w, (machine fun _ : Bool => some 1).Reachable w ∧ (false, true) ∈ w.expecting ∧
      (w.actors true).stopped = false ∧ w.Finished false ∧ ¬ w.InMailbox false true :=
  exists_of_exec fullLane rfl (by decide +kernel)

theorem watch_not_lost_unbounded :
    ∃ w, (machine fun _ : Bool => none).Reach HasRoom w ∧ w.InMailbox false true := by
  obtain ⟨w, hw, he, hs, hf⟩ := exists_of_exec (M := machine fun _ : Bool => none)
    (c := HasRoom) (P := fun w => (false, true) ∈ w.expecting ∧ (w.actors true).stopped = false ∧
      w.Finished false) fullLane.dropLast rfl (by decide +kernel)
  exact ⟨w, hw, watch_not_lost hw he hs hf⟩

end DeathWatch

end Kairo.Actor
