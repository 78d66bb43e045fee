import Kairo.Lib.FinMap

/-!
# Timers

Cancelling or replacing a timer does not take back the envelopes that are in the mailbox already.  An
actor knows the envelopes of the timer that is active under a key by the generation of its start.
-/

namespace Kairo.Actor

open Kairo.Lib

structure TimerEntry where
  generation : ℕ
  repeats : Bool

/-- The generation of the latest start, and the timers that are active. -/
structure TimerState (K : Type*) where
  generation : ℕ
  active : FinMap K TimerEntry

/-- What an actor does with its timers; both kinds of repeating timers are one. -/
inductive TimerAction (K : Type*)
  | startSingleTimer (key : K)
  | startRepeatingTimer (key : K) (delay : ℕ)
  | cancelTimer (key : K)
  | cancelAllTimers
  | deliver (key : K) (generation : ℕ)

variable {K : Type*} [DecidableEq K]

namespace TimerState

variable (t : TimerState K)

def nextGeneration : ℕ := min (t.generation + 1) (UInt64.size - 1)

/-- A start under a new generation; a timer that is active under the key is cancelled. -/
def start (key : K) (repeats : Bool) : TimerState K :=
  ⟨t.nextGeneration, (t.active.erase key).insert key ⟨t.nextGeneration, repeats⟩⟩

def cancel (key : K) : TimerState K := { t with active := t.active.erase key }

def cancelAll : TimerState K := { t with active := ∅ }

def accept (key : K) (generation : ℕ) : TimerState K × Bool :=
  match t.active.lookup key with
  | none => (t, false)
  | some existing =>
    if existing.generation ≠ generation then (t, false)
    else if existing.repeats then (t, true)
    else (t.cancel key, true)

def step : TimerAction K → TimerState K
  | .startSingleTimer key => t.start key false
  | .startRepeatingTimer key delay => if delay = 0 then t.cancel key else t.start key true
  | .cancelTimer key => t.cancel key
  | .cancelAllTimers => t.cancelAll
  | .deliver key generation => (t.accept key generation).1

end TimerState

/-- The timer `e` of a key is replaced or cancelled, or its only envelope delivered. -/
def TimerAction.Ends (key : K) (e : TimerEntry) : TimerAction K → Prop
  | .startSingleTimer k | .startRepeatingTimer k _ | .cancelTimer k => k = key
  | .cancelAllTimers => True
  | .deliver k generation => k = key ∧ generation = e.generation ∧ e.repeats = false

namespace TimerState

variable {t : TimerState K} {key : K} {e : TimerEntry} {live : Prop}

lemma generation_start (hroom : t.generation + 1 < UInt64.size) (key : K) (repeats : Bool) :
    (t.start key repeats).generation = t.generation + 1 :=
  min_eq_left (Nat.le_sub_one_of_lt hroom)

/-- As long as it lives the timer `e` is active, and afterwards nothing has its generation. -/
structure Tracks (key : K) (e : TimerEntry) (live : Prop) (t : TimerState K) : Prop where
  started : e.generation ≤ t.generation
  active : live → t.active.lookup key = some e
  ended : ¬ live → ∀ e' ∈ t.active.lookup key, e'.generation ≠ e.generation

lemma Tracks.congr {live' : Prop} (h : Tracks key e live t) (hl : live ↔ live') :
    Tracks key e live' t :=
  propext hl ▸ h

lemma Tracks.cancel (h : Tracks key e live t) (k : K) :
    Tracks key e (live ∧ k ≠ key) (t.cancel k) where
  started := h.started
  active hl := by
    rw [TimerState.cancel, FinMap.lookup_erase, if_neg hl.2.symm]
    exact h.active hl.1
  ended hl e' he' := by
    rw [TimerState.cancel, FinMap.lookup_erase] at he'
    split_ifs at he' with hk
    · cases he'
    · exact h.ended (fun hlive => hl ⟨hlive, Ne.symm hk⟩) e' he'

lemma Tracks.start (h : Tracks key e live t) (hroom : t.generation + 1 < UInt64.size) (k : K)
    (repeats : Bool) : Tracks key e (live ∧ k ≠ key) (t.start k repeats) := by
  have hcancel := h.cancel k
  have hlater : e.generation < (t.start k repeats).generation := by
    rw [generation_start hroom]
    exact Nat.lt_succ_of_le h.started
  refine ⟨hlater.le, fun hl => ?_, fun hl e' he' => ?_⟩
  · rw [TimerState.start, FinMap.lookup_insert, if_neg hl.2.symm]
    exact hcancel.active hl
  · rw [TimerState.start, FinMap.lookup_insert] at he'
    split_ifs at he' with hk
    · obtain rfl := Option.some.inj he'
      exact hlater.ne'
    · exact hcancel.ended hl e' he'

lemma accept_cases (t : TimerState K) (k : K) (generation : ℕ) :
    (t.accept k generation).1 = t ∧
        (∀ e ∈ t.active.lookup k, e.generation = generation → e.repeats = true) ∨
      (t.accept k generation).1 = t.cancel k ∧
        ∃ e ∈ t.active.lookup k, e.generation = generation ∧ e.repeats = false := by
  unfold accept
  cases t.active.lookup k with
  | none => exact .inl ⟨rfl, fun e he => by cases he⟩
  | some existing =>
    dsimp only
    split_ifs with hne hrep
    · exact .inl ⟨rfl, fun e he hg => absurd (Option.some.inj he ▸ hg) hne⟩
    · exact .inl ⟨rfl, fun e he _ => Option.some.inj he ▸ hrep⟩
    · exact .inr ⟨rfl, existing, rfl, not_not.mp hne, Bool.not_eq_true _ ▸ hrep⟩

lemma Tracks.step (h : Tracks key e live t) (hroom : t.generation + 1 < UInt64.size)
    (a : TimerAction K) : Tracks key e (live ∧ ¬ a.Ends key e) (t.step a) := by
  cases a with
  | startSingleTimer k => exact h.start hroom k false
  | startRepeatingTimer k delay =>
    unfold TimerState.step
    dsimp only
    split_ifs
    · exact h.cancel k
    · exact h.start hroom k true
  | cancelTimer k => exact h.cancel k
  | cancelAllTimers =>
    exact ⟨h.started, fun hl => absurd trivial hl.2, fun _ e' he' => by cases he'⟩
  | deliver k generation =>
    unfold TimerState.step
    dsimp only
    rcases accept_cases t k generation with ⟨heq, hrep⟩ | ⟨heq, e', he', hg, hsingle⟩
    · rw [heq]
      refine h.congr ⟨fun hl => ⟨hl, ?_⟩, And.left⟩
      rintro ⟨rfl, rfl, hsingle⟩
      rw [hrep e (h.active hl) rfl] at hsingle
      cases hsingle
    · rw [heq]
      refine (h.cancel k).congr (and_congr_right fun hl => not_congr ⟨?_, And.left⟩)
      rintro rfl
      obtain rfl := Option.some.inj ((h.active hl).symm.trans he')
      exact ⟨rfl, hg.symm, hsingle⟩

lemma generation_step_le (t : TimerState K) (a : TimerAction K) :
    (t.step a).generation ≤ t.generation + 1 := by
  have hnext : t.nextGeneration ≤ t.generation + 1 := min_le_left _ _
  unfold step accept
  repeat' split
  all_goals first | exact hnext | exact Nat.le_succ _

lemma Tracks.run (later : List (TimerAction K)) (h : Tracks key e live t)
    (hroom : t.generation + later.length < UInt64.size) :
    Tracks key e (live ∧ ∀ a ∈ later, ¬ a.Ends key e) (later.foldl TimerState.step t) := by
  induction later generalizing t live with
  | nil => exact h.congr (by simp)
  | cons a later ih =>
    have hle := generation_step_le t a
    rw [List.length_cons] at hroom
    refine (ih (h.step (by omega) a) (by omega)).congr ?_
    rw [List.forall_mem_cons, and_assoc]

lemma Tracks.accept_iff (h : Tracks key e live t) :
    (t.accept key e.generation).2 = true ↔ live := by
  unfold accept
  by_cases hl : live
  · rw [h.active hl]
    cases hrep : e.repeats <;> simp [hl, hrep]
  · cases hactive : t.active.lookup key with
    | none => simp [hl]
    | some e' => simp [h.ended hl e' hactive, hl]

/-- **Only the envelopes of the active timer are accepted.**  Whatever the actor does after a start and
whatever is delivered, an envelope of the start is accepted exactly until its timer ends. -/
theorem accept_iff_not_ended (t : TimerState K) (key : K) (repeats : Bool)
    (later : List (TimerAction K)) (hroom : t.generation + later.length + 1 < UInt64.size) :
    ((later.foldl step (t.start key repeats)).accept key t.nextGeneration).2 = true ↔
      ∀ a ∈ later, ¬ a.Ends key ⟨t.nextGeneration, repeats⟩ := by
  have hstart : Tracks key ⟨t.nextGeneration, repeats⟩ True (t.start key repeats) :=
    ⟨le_rfl, fun _ => by rw [start, FinMap.lookup_insert, if_pos rfl], fun hl => absurd trivial hl⟩
  have hrun := hstart.run later (by rw [generation_start (by omega)]; omega)
  exact hrun.accept_iff.trans (and_iff_right trivial)

/-- The envelope of a timer that was started again is refused. -/
theorem accept_iff_not_ended_replaced :
    (([.startSingleTimer 0].foldl step ((⟨0, ∅⟩ : TimerState ℕ).start 0 false)).accept 0 1).2 ≠ true :=
  fun h => (accept_iff_not_ended ⟨0, ∅⟩ 0 false _ (by decide)).mp h _ List.mem_cons_self rfl

end TimerState

end Kairo.Actor
