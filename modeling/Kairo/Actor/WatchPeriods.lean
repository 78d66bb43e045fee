import Kairo.Actor.DeathWatch
import Kairo.Lib.Positions

/-!
# At most one notice in a watch period

A period of a subject and a watcher starts when the registry accepts a watch, and `unwatch` ends it.
The `load` of a pair counts what may still become a notice: registrations, notifications whose
registration was taken, queued markers, gated signals and notices about to be handled.  Every step but
an accepted watch leaves it or makes it smaller, and a handled notice uses up one.
-/

namespace Kairo.Actor

open Kairo.Lib Function List Finset Option Machine.Reach WatchActor

variable {P : Type*} [DecidableEq P]

/-- The notices of a subject that no marker stops any more. -/
def WatchActor.held (x : WatchActor P) (subject : P) : ℕ :=
  x.system.count (.gatedSignal subject) + (if x.receiving = some subject then 1 else 0)

namespace DeathWatch

variable (w : DeathWatch P) (p : P × P)

/-- The notifications of a pair that are not marked yet. -/
def taken : ℕ := w.notifying.countP fun e => e.1.pair = p ∧ e.2 = .taken

/-- Whether a pair is in a set of queued notices, as a number. -/
def mark (s : Finset (P × P)) (p : P × P) : ℕ := if p ∈ s then 1 else 0

def marks : ℕ := mark w.queuedSignals p + mark w.queuedCustoms p

/-- What the registry has of a pair. -/
def underway : ℕ := w.watchers.countP (·.pair = p) + w.taken p + w.marks p

/-- What may still become a notice. -/
def load : ℕ := w.underway p + (w.actors p.2).held p.1

/-- An `unwatch` does not fall between the registrations and the marker of a notification, nor between
the marker and the watcher; a registration is added only when nothing of an earlier watch is left. -/
def Settled : Action P → Prop
  | .unwatch subject watcher =>
    w.taken (subject, watcher) = 0 ∧ (w.actors watcher).held subject = 0
  | .stepWatch i => ∀ r, w.watching[i]? = some (r, .register) →
    w.taken r.pair = 0 ∧ w.marks r.pair = 0 ∧ (w.actors r.watcher).held r.subject = 0
  | _ => True

instance (x : Action P) : Decidable (w.Settled x) :=
  match x with
  | .unwatch _ _ => inferInstanceAs (Decidable (_ ∧ _))
  | .stepWatch i =>
    match h : w.watching[i]? with
    | some (r, .register) =>
      decidable_of_iff (w.taken r.pair = 0 ∧ w.marks r.pair = 0 ∧
          (w.actors r.watcher).held r.subject = 0)
        ⟨fun hr _ hx => by cases h.symm.trans hx; exact hr, fun hr => hr r h⟩
    | some (_, .checkOwn) | some (_, .checkOther) | some (_, .recheck) | none =>
      isTrue fun _ hx => by cases h.symm.trans hx
  | .tell _ | .tellSystem _ | .watch .. | .stop _ | .close _ | .removeWatcher _ | .terminate _
  | .notify _ | .notifyMatching _ | .stepNotify _ | .process _ => isTrue trivial

/-- Outside a period nothing may become a notice, and in a period at most one notice is or was
there. -/
structure Exact : Prop where
  ended : ∀ p, w.periods p = none → w.load p = 0
  atMostOne : ∀ p n, w.periods p = some n → w.load p + n ≤ 1
  expected : w.unexpected = []

variable {w} {v : DeathWatch P} {a : P} {f : WatchActor P → WatchActor P} {q : P × P} {i : ℕ}
  {r : Registration P} {item : SystemItem P}

/-! ## The load of an updated state -/

lemma load_modify_le (h : ∀ s, (f (w.actors a)).held s ≤ (w.actors a).held s) (p : P × P) :
    (w.modify a f).load p ≤ w.load p := by
  refine Nat.add_le_add_left ?_ (w.underway p)
  show ((update w.actors a (f (w.actors a))) p.2).held p.1 ≤ _
  by_cases hp : p.2 = a
  · rw [hp, update_self]
    exact h p.1
  · rw [update_of_ne hp]

omit [DecidableEq P] in
lemma countP_filter_le (l : List (Registration P)) (q q' : Registration P → Bool) :
    (l.filter q).countP q' ≤ l.countP q' :=
  filter_sublist.countP_le

lemma load_takeRegistrations (predicate : P → Bool) (p : P × P) :
    (w.takeRegistrations predicate).load p = w.load p := by
  have hc : ∀ l : List (Registration P),
      (l.filter (!predicate ·.subject)).countP (·.pair = p) +
        ((l.filter (predicate ·.subject)).map fun r => (r, NotifyStage.taken)).countP
          (fun e => e.1.pair = p ∧ e.2 = .taken) = l.countP (·.pair = p) := by
    intro l
    induction l with
    | nil => rfl
    | cons r l ih =>
      cases hr : predicate r.subject <;> simp [hr, countP_cons] at ih ⊢ <;> omega
  have := hc w.watchers
  simp only [load, underway, takeRegistrations, taken, marks, countP_append] at this ⊢
  omega

lemma mark_le {s t : Finset (P × P)} (h : s ⊆ t) (p : P × P) : mark s p ≤ mark t p := by
  by_cases hp : p ∈ s
  · rw [mark, mark, if_pos hp, if_pos (h hp)]
  · rw [mark, if_neg hp]
    exact Nat.zero_le _

lemma mark_erase {s : Finset (P × P)} (hq : q ∈ s) (p : P × P) :
    mark (s.erase q) p + (if p = q then 1 else 0) = mark s p := by
  by_cases hp : p = q
  · subst hp
    rw [mark, mark, if_neg (notMem_erase p s), if_pos rfl, if_pos hq]
  · rw [if_neg hp, mark, mark]
    simp [hp]

lemma mark_insert_le (s : Finset (P × P)) (q p : P × P) :
    mark (insert q s) p ≤ mark s p + (if p = q then 1 else 0) := by
  by_cases hp : p = q
  · rw [if_pos hp, mark]
    split <;> omega
  · rw [if_neg hp, mark, mark]
    simp [hp]

lemma load_erase_queuedSignals (hq : q ∈ w.queuedSignals) (p : P × P) :
    ({ w with queuedSignals := w.queuedSignals.erase q } : DeathWatch P).load p +
      (if p = q then 1 else 0) = w.load p := by
  have := mark_erase hq p
  simp only [load, underway, taken, marks]
  omega

lemma load_erase_queuedCustoms (hq : q ∈ w.queuedCustoms) (p : P × P) :
    ({ w with queuedCustoms := w.queuedCustoms.erase q } : DeathWatch P).load p +
      (if p = q then 1 else 0) = w.load p := by
  have := mark_erase hq p
  simp only [load, underway, taken, marks]
  omega

lemma load_modify_of_ne {p : P × P} (hp : p.2 ≠ a) : (w.modify a f).load p = w.load p := by
  show w.underway p + ((update w.actors a (f (w.actors a))) p.2).held p.1 = _
  rw [update_of_ne hp]
  rfl

lemma load_modify_self (s : P) :
    (w.modify a f).load (s, a) = w.underway (s, a) + (f (w.actors a)).held s := by
  show w.underway (s, a) + ((update w.actors a (f (w.actors a))) a).held s = _
  rw [update_self]

lemma load_modify_more {a s : P}
    (h : ∀ t, (f (w.actors a)).held t = (w.actors a).held t + (if t = s then 1 else 0))
    (p : P × P) : (w.modify a f).load p = w.load p + (if p = (s, a) then 1 else 0) := by
  obtain ⟨t, b⟩ := p
  by_cases hb : b = a
  · subst hb
    rw [load_modify_self, h t, ← Nat.add_assoc]
    simp only [Prod.mk.injEq, and_true]
    rfl
  · rw [load_modify_of_ne hb, if_neg fun he => hb (congrArg Prod.snd he)]
    rfl

lemma load_modify_less {a s : P}
    (h : ∀ t, (f (w.actors a)).held t + (if t = s then 1 else 0) = (w.actors a).held t)
    (p : P × P) : (w.modify a f).load p + (if p = (s, a) then 1 else 0) = w.load p := by
  obtain ⟨t, b⟩ := p
  by_cases hb : b = a
  · subst hb
    rw [load_modify_self]
    simp only [Prod.mk.injEq, and_true]
    rw [Nat.add_assoc, h t]
    rfl
  · rw [load_modify_of_ne hb, if_neg fun he => hb (congrArg Prod.snd he)]
    rfl

lemma held_receiving {x : WatchActor P} (hx : x.receiving = none) (s t : P) :
    ({ x with receiving := some s } : WatchActor P).held t = x.held t + (if t = s then 1 else 0) := by
  simp only [held, hx, some.injEq, reduceCtorEq, if_false, eq_comm]
  rfl

variable (x : WatchActor P)

lemma held_gatedSignal (s t : P) :
    ({ x with system := x.system ++ [.gatedSignal s] } : WatchActor P).held t =
      x.held t + (if t = s then 1 else 0) := by
  simp only [held, count_append, count_singleton, beq_iff_eq,
    SystemItem.gatedSignal.injEq, eq_comm (a := s)]
  omega

lemma load_le_of_underway_le (hu : ∀ p, v.underway p ≤ w.underway p) (ha : v.actors = w.actors)
    (p : P × P) : v.load p ≤ w.load p := by
  rw [load, load, ha]
  exact Nat.add_le_add_right (hu p) _

/-! ## Steps that keep the periods -/

lemma Exact.of_load_le (h : Exact w) (hl : ∀ p, v.load p ≤ w.load p) (hp : v.periods = w.periods)
    (hu : v.unexpected = w.unexpected) : Exact v where
  ended p hn := Nat.le_zero.mp (h.ended p (hp ▸ hn) ▸ hl p)
  atMostOne p n hn := (Nat.add_le_add_right (hl p) n).trans (h.atMostOne p n (hp ▸ hn))
  expected := hu.trans h.expected

lemma Exact.modify (h : Exact w)
    (hf : ∀ s, (f (w.actors a)).held s ≤ (w.actors a).held s) : Exact (w.modify a f) :=
  h.of_load_le (load_modify_le hf) rfl rfl

lemma Exact.takeRegistrations (h : Exact w) (predicate : P → Bool) :
    Exact (w.takeRegistrations predicate) :=
  h.of_load_le (fun p => (load_takeRegistrations predicate p).le) rfl rfl

lemma Exact.setPeriod (h : Exact w) {x : Option ℕ} (hl : ∀ p, p ≠ q → v.load p ≤ w.load p)
    (hx : x.elim (v.load q = 0) (v.load q + · ≤ 1)) (hp : v.periods = update w.periods q x)
    (hu : v.unexpected = w.unexpected) : Exact v := by
  refine ⟨fun p hnone => ?_, fun p n hsome => ?_, hu.trans h.expected⟩
  · by_cases hpq : p = q
    · subst hpq
      rw [hp, update_self] at hnone
      rw [hnone] at hx
      exact hx
    · rw [hp, update_of_ne hpq] at hnone
      exact Nat.le_zero.mp (h.ended p hnone ▸ hl p hpq)
  · by_cases hpq : p = q
    · subst hpq
      rw [hp, update_self] at hsome
      rw [hsome] at hx
      exact hx
    · rw [hp, update_of_ne hpq] at hsome
      exact (Nat.add_le_add_right (hl p hpq) n).trans (h.atMostOne p n hsome)

/-- **A handled notice** uses up what the period allows. -/
theorem Exact.handle (h : Exact w) {subject watcher : P}
    (hl : ∀ p, v.load p + (if p = (subject, watcher) then 1 else 0) ≤ w.load p)
    (hp : v.periods = w.periods) (hu : v.unexpected = w.unexpected) :
    Exact (v.handle subject watcher) := by
  have hone := hl (subject, watcher)
  rw [if_pos rfl] at hone
  obtain ⟨n, hn⟩ : ∃ n, w.periods (subject, watcher) = some n := by
    cases hw : w.periods (subject, watcher) with
    | none => have := h.ended _ hw; omega
    | some n => exact ⟨n, rfl⟩
  have hle := h.atMostOne _ n hn
  obtain rfl : n = 0 := by omega
  refine h.setPeriod (x := some 1) (fun p _ => (Nat.le_add_right _ _).trans (hl p))
    (hone.trans hle) ?_ ?_
  · show update v.periods _ _ = _
    rw [hp, hn]
    rfl
  · show (if v.periods (subject, watcher) = some 0 then _ else _) = _
    rw [hp, if_pos hn, hu]

lemma Exact.load_le_one (h : Exact w) (p : P × P) : w.load p ≤ 1 := by
  cases hw : w.periods p with
  | none => rw [h.ended p hw]; exact Nat.zero_le _
  | some n => exact (Nat.le_add_right _ n).trans (h.atMostOne p n hw)

/-! ## Calls of watch -/

theorem Exact.watching (h : Exact w) (calls : List (Registration P × WatchStage)) :
    Exact { w with watching := calls } :=
  h.of_load_le (fun _ => le_rfl) rfl rfl

lemma Exact.acceptWatch (h : Exact w) (i : ℕ) (r : Registration P) : Exact (w.acceptWatch i r) :=
  h.setPeriod (x := some 0) (fun _ _ => le_rfl) (h.load_le_one _) rfl rfl

lemma Exact.watchStep (h : Exact w) {stage : WatchStage}
    (hi : w.watching[i]? = some (r, stage)) (hs : w.Settled (.stepWatch i)) :
    Exact (w.watchStep i r stage) := by
  cases stage with
  | checkOwn =>
    rw [DeathWatch.watchStep]
    split
    · exact h.acceptWatch i r
    · exact h.watching _
  | checkOther =>
    rw [DeathWatch.watchStep]
    split <;> exact h.watching _
  | register =>
    rw [DeathWatch.watchStep]
    split
    · split
      · exact h.acceptWatch i r
      · exact h.watching _
    · rename_i hfind
      obtain ⟨ht, hm, hh⟩ := hs r hi
      have hr : w.watchers.countP (·.pair = r.pair) = 0 := by
        rw [countP_eq_zero]
        exact find?_eq_none.mp hfind
      refine h.setPeriod (fun p hp => ?_) ?_ rfl rfl
      · have : (w.watchers ++ [r]).countP (·.pair = p) = w.watchers.countP (·.pair = p) := by
          rw [countP_append, countP_singleton, if_neg (by simpa using Ne.symm hp)]
          rfl
        show (w.watchers ++ [r]).countP (·.pair = p) + _ + _ + _ ≤ _
        rw [this]
        rfl
      · show (w.watchers ++ [r]).countP (·.pair = r.pair) + w.taken r.pair + w.marks r.pair +
          (w.actors r.watcher).held r.subject ≤ 1
        rw [countP_append, countP_singleton, hr, ht, hm, hh, if_pos (by simp)]
  | recheck =>
    rw [DeathWatch.watchStep]
    split
    · exact (h.watching _).takeRegistrations _
    · exact h.watching _

/-! ## Notifications -/

theorem Exact.setQueued (h : Exact w) {custom : Bool} {s : Finset (P × P)}
    (hs : s ⊆ w.queued custom) : Exact (w.setQueued custom s) := by
  cases custom with
  | false =>
    exact h.of_load_le (load_le_of_underway_le
      (fun p => Nat.add_le_add_left (Nat.add_le_add_right (mark_le hs p) _) _) rfl) rfl rfl
  | true =>
    exact h.of_load_le (load_le_of_underway_le
      (fun p => Nat.add_le_add_left (Nat.add_le_add_left (mark_le hs p) _) _) rfl) rfl rfl

lemma Exact.notifying (h : Exact w) {calls : List (Registration P × NotifyStage)}
    (hc : ∀ p, calls.countP (fun e => e.1.pair = p ∧ e.2 = .taken) ≤ w.taken p) :
    Exact { w with notifying := calls } :=
  h.of_load_le (load_le_of_underway_le
    (fun p => Nat.add_le_add_right (Nat.add_le_add_left (hc p) _) _) rfl) rfl rfl

lemma Exact.eraseNotifying (h : Exact w) (i : ℕ) :
    Exact { w with notifying := w.notifying.eraseIdx i } :=
  h.notifying fun _ => (eraseIdx_sublist _ _).countP_le

lemma Exact.markTaken (h : Exact w) (hi : w.notifying[i]? = some (r, .taken)) :
    Exact (w.notifyStep i r .taken) := by
  have hc : ∀ p, (w.notifying.set i (r, .marked)).countP (fun e => e.1.pair = p ∧ e.2 = .taken) +
      (if p = r.pair then 1 else 0) = w.taken p := by
    intro p
    have := countP_set (b := (r, NotifyStage.marked)) (fun e => e.1.pair = p ∧ e.2 = .taken) hi
    simp only [reduceCtorEq, and_false, decide_false, and_true, decide_eq_true_eq,
      Bool.false_eq_true, if_false, eq_comm (a := r.pair)] at this
    exact this
  rw [DeathWatch.notifyStep]
  cases hk : r.flavor.isCustom
  · refine h.of_load_le (load_le_of_underway_le (fun p => ?_) rfl) rfl rfl
    have h1 := hc p
    have h2 := mark_insert_le w.queuedSignals r.pair p
    show w.watchers.countP _ + (w.notifying.set i (r, .marked)).countP _ +
      (mark (insert r.pair w.queuedSignals) p + mark w.queuedCustoms p) ≤ w.watchers.countP _ +
      w.taken p + (mark w.queuedSignals p + mark w.queuedCustoms p)
    omega
  · refine h.of_load_le (load_le_of_underway_le (fun p => ?_) rfl) rfl rfl
    have h1 := hc p
    have h2 := mark_insert_le w.queuedCustoms r.pair p
    show w.watchers.countP _ + (w.notifying.set i (r, .marked)).countP _ +
      (mark w.queuedSignals p + mark (insert r.pair w.queuedCustoms) p) ≤ w.watchers.countP _ +
      w.taken p + (mark w.queuedSignals p + mark w.queuedCustoms p)
    omega

lemma held_append_user (items : List (UserItem P)) (s : P) :
    ({ x with user := items } : WatchActor P).held s ≤ x.held s :=
  le_rfl

lemma held_append_system (hi : ∀ s, item ≠ .gatedSignal s) (s : P) :
    ({ x with system := x.system ++ [item] } : WatchActor P).held s ≤ x.held s := by
  refine Nat.add_le_add_right ?_ _
  rw [count_append, count_singleton, if_neg (by simpa using hi s)]
  exact le_rfl

lemma Exact.enqueueNotice (h : Exact w)
    (hi : w.notifying[i]? = some (r, .marked)) : Exact (w.enqueueNotice i r) := by
  have hdone := h.eraseNotifying i
  have hreject : Exact { w with notifying := w.notifying.set i (r, .rejected) } :=
    h.notifying fun p => by
      have := countP_set (b := (r, NotifyStage.rejected)) (fun e => e.1.pair = p ∧ e.2 = .taken) hi
      simp only [reduceCtorEq, and_false, decide_false, Bool.false_eq_true, if_false] at this
      exact this.le
  have huser : ∀ item : UserItem P, Exact ({ w with notifying := w.notifying.eraseIdx i }.modify
      r.watcher fun x => { x with user := x.user ++ [item] }) :=
    fun item => hdone.modify fun s => held_append_user _ _ s
  unfold DeathWatch.enqueueNotice
  dsimp only
  split
  · split
    · exact hdone
    · exact hdone.modify fun s => held_append_system _ (nofun) s
  · split
    · exact Exact.setQueued hdone (erase_subset _ _)
    · split
      · exact hreject
      · exact huser _

lemma Exact.notifyStep (h : Exact w) {stage : NotifyStage}
    (hi : w.notifying[i]? = some (r, stage)) : Exact (w.notifyStep i r stage) := by
  cases stage with
  | taken => exact h.markTaken hi
  | marked => exact h.enqueueNotice hi
  | rejected => exact (h.eraseNotifying i).setQueued (erase_subset _ _)

/-! ## Processing -/

lemma Exact.takeMarker (h : Exact w) {s : P}
    (hl : ∀ p, v.load p + (if p = (s, a) then 1 else 0) = w.load p) (hp : v.periods = w.periods)
    (hu : v.unexpected = w.unexpected)
    (hf : ∀ t, (f (v.actors a)).held t = (v.actors a).held t + (if t = s then 1 else 0)) :
    Exact (v.modify a f) :=
  h.of_load_le (fun p => ((load_modify_more hf p).trans (hl p)).le) hp hu

lemma Exact.processSystem (h : Exact w) {items : List (SystemItem P)}
    (hi : (w.actors a).system = item :: items) (hr : (w.actors a).receiving = none) :
    Exact ((w.modify a fun x => { x with system := items }).processSystem a item) := by
  have hsys : ∀ s, ({ w.actors a with system := items } : WatchActor P).held s ≤
      (w.actors a).held s := by
    intro s
    refine Nat.add_le_add_right ?_ _
    rw [hi]
    exact (sublist_cons_self _ _).count_le _
  have hv := h.modify (f := fun x => { x with system := items }) hsys
  cases item with
  | other => exact hv
  | gatedSignal subject =>
    refine h.handle (fun p => ?_) rfl rfl
    show (w.modify a fun x => { x with system := items }).load p + _ ≤ _
    refine (load_modify_less (fun t => ?_) p).le
    simp only [held, hi, count_cons, beq_iff_eq, SystemItem.gatedSignal.injEq,
      eq_comm (a := subject)]
    omega
  | signal subject =>
    rw [DeathWatch.processSystem]
    split
    · rename_i hq
      refine hv.takeMarker (load_erase_queuedSignals hq) rfl rfl fun t => held_receiving ?_ _ t
      rw [modify_actors_self]
      exact hr
    · exact hv

lemma Exact.processUser (h : Exact w) {item : UserItem P} {items : List (UserItem P)}
    (hr : (w.actors a).receiving = none) :
    Exact ((w.modify a fun x => { x with user := items }).processUser a item) := by
  have hv := h.modify (a := a) (f := fun x => { x with user := items })
    fun s => held_append_user _ _ s
  cases item with
  | message => exact hv
  | notice subject custom =>
    cases custom with
    | false =>
      rw [DeathWatch.processUser]
      split
      · rename_i hq
        exact hv.takeMarker (load_erase_queuedSignals hq) rfl rfl fun t => held_gatedSignal _ _ t
      · exact hv
    | true =>
      rw [DeathWatch.processUser]
      split
      · rename_i hq
        refine hv.takeMarker (load_erase_queuedCustoms hq) rfl rfl fun t => held_receiving ?_ _ t
        rw [modify_actors_self]
        exact hr
      · exact hv

lemma Exact.processNext (h : Exact w) (a : P) : Exact (w.processNext a) := by
  unfold DeathWatch.processNext
  split
  · rename_i subject hr
    refine h.handle (fun p => ?_) rfl rfl
    refine (load_modify_less (fun t => ?_) p).le
    simp only [held, hr, reduceCtorEq, if_false, some.injEq, eq_comm]
    rfl
  · rename_i hr hs
    exact h.processSystem hs hr
  · rename_i hr _ _
    exact h.processUser hr
  · exact h

/-! ## The step and the run -/

lemma Exact.unwatch (h : Exact w) {subject watcher : P}
    (hs : w.Settled (.unwatch subject watcher))
    (hstep : w.step (.unwatch subject watcher) = some v) : Exact v := by
  obtain ⟨ht, hh⟩ := hs
  have hle : ∀ p, v.load p ≤ w.load p := by
    cases hstep
    exact load_le_of_underway_le (fun p => Nat.add_le_add
      (Nat.add_le_add_right (countP_filter_le _ _ _) _)
      (Nat.add_le_add (mark_le (erase_subset _ _) p) (mark_le (erase_subset _ _) p))) rfl
  cases hstep
  refine h.setPeriod (fun p _ => hle p) ?_ rfl rfl
  have hr : (w.watchers.filter (·.pair ≠ (subject, watcher))).countP
      (·.pair = (subject, watcher)) = 0 := by
    rw [countP_eq_zero]
    intro r hr
    simpa using (mem_filter.mp hr).2
  show (w.watchers.filter (·.pair ≠ (subject, watcher))).countP (·.pair = (subject, watcher)) +
    w.taken (subject, watcher) + _ + (w.actors watcher).held subject = 0
  rw [hr, ht, hh]
  simp [marks, mark]

lemma Exact.step (h : Exact w) {x : Action P} (hs : w.Settled x) (ht : w.step x = some v) :
    Exact v := by
  cases x with
  | tell a =>
    rw [DeathWatch.step] at ht
    split at ht <;> cases ht
    · exact h
    · exact h.modify fun s => held_append_user _ _ s
  | tellSystem a =>
    rw [DeathWatch.step] at ht
    split at ht <;> cases ht
    · exact h
    · exact h.modify fun s => held_append_system _ (nofun) s
  | watch subject watcher flavor =>
    rw [DeathWatch.step] at ht
    split at ht
    · cases ht
    · cases ht
      exact h.watching _
  | stepWatch i =>
    obtain ⟨⟨r, stage⟩, hi, rfl⟩ := map_eq_some_iff.mp ht
    exact h.watchStep hi hs
  | unwatch subject watcher => exact h.unwatch hs ht
  | stop a =>
    cases ht
    exact h.modify fun _ => le_rfl
  | close a =>
    rw [DeathWatch.step] at ht
    split at ht
    · cases ht
      exact h.modify fun _ => Nat.zero_le _
    · cases ht
  | removeWatcher a =>
    rw [DeathWatch.step] at ht
    split at ht
    · cases ht
      have hm := h.modify (a := a) (f := fun x => { x with detached := true }) fun _ => le_rfl
      exact hm.of_load_le (load_le_of_underway_le (fun p => Nat.add_le_add
        (Nat.add_le_add_right (countP_filter_le _ _ _) _)
        (Nat.add_le_add (mark_le (filter_subset _ _) p)
          (mark_le (filter_subset _ _) p))) rfl) rfl rfl
    · cases ht
  | terminate a =>
    rw [DeathWatch.step] at ht
    split at ht
    · cases ht
      have hm := h.modify (a := a) (f := fun x => { x with terminated := true }) fun _ => le_rfl
      exact hm.of_load_le (fun _ => le_rfl) rfl rfl
    · cases ht
  | notify i =>
    obtain ⟨subject, hi, rfl⟩ := map_eq_some_iff.mp ht
    have hd : Exact { w with terminating := w.terminating.eraseIdx i } :=
      h.of_load_le (fun _ => le_rfl) rfl rfl
    exact hd.takeRegistrations _
  | notifyMatching predicate =>
    cases ht
    exact h.takeRegistrations _
  | stepNotify i =>
    obtain ⟨⟨r, stage⟩, hi, rfl⟩ := map_eq_some_iff.mp ht
    exact h.notifyStep hi
  | process a =>
    rw [DeathWatch.step] at ht
    split at ht
    · cases ht
    · cases ht
      exact h.processNext a

lemma exact_start (userCapacity : P → Option ℕ) : Exact (start userCapacity) := by
  refine ⟨fun p _ => ?_, fun p n hn => ?_, rfl⟩
  · simp [load, underway, taken, marks, mark, start, held]
  · cases hn

/-- **Notices are exact.**  In every run in which no `unwatch` meets a notification between its
registration and its handling, and no watch is registered over one, no notice is handled outside a
period or as the second one in it. -/
theorem notices_exact {userCapacity : P → Option ℕ}
    (h : (machine userCapacity).Reach Settled w) : w.unexpected = [] :=
  (invariant (fun _ h0 => h0 ▸ exact_start userCapacity)
    (fun _ _ _ hi hs ht => Exact.step hi hs ht) h).expected

/-! ## An `unwatch` between the registration and the marker -/

/-- Actor `true` watches actor `false`, which terminates; `unwatch` returns after the registration
was taken for the notification and before its marker is queued. -/
def overtakenUnwatch : List (Action Bool) :=
  [.watch false true .watch, .stepWatch 0, .stepWatch 0, .stepWatch 0, .stepWatch 0, .stop false,
    .close false, .removeWatcher false, .terminate false, .notify 0, .unwatch false true,
    .stepNotify 0, .stepNotify 0, .process true, .process true]

/-- The watcher handles the notice after its `unwatch` returned. -/
theorem notice_after_unwatch :
    ∃ w, (machine fun _ : Bool => none).Reachable w ∧ w.unexpected = [(false, true)] :=
  exists_of_exec overtakenUnwatch rfl (by decide +kernel)

/-- A run with a notice and an `unwatch` after it. -/
def watchAndUnwatch : List (Action Bool) :=
  [.watch false true .watch, .stepWatch 0, .stepWatch 0, .stepWatch 0, .stepWatch 0, .stop false,
    .close false, .removeWatcher false, .terminate false, .notify 0, .stepNotify 0, .stepNotify 0,
    .process true, .process true, .unwatch false true]

theorem notices_exact_unwatched :
    ∃ w, (machine fun _ : Bool => none).Reach Settled w ∧ w.unexpected = [] := by
  obtain ⟨w, hw, _⟩ := exists_of_exec (M := machine fun _ : Bool => none)
    (c := Settled)
    (P := fun w => w.periods (false, true) = none) watchAndUnwatch rfl
    (by decide +kernel)
  exact ⟨w, hw, notices_exact hw⟩

end DeathWatch

end Kairo.Actor
