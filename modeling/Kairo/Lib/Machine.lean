import Mathlib.Data.Option.Basic

/-!
# Labelled transition machines

A machine has initial states and a partial step function; a label that is not enabled in a state
gives no successor.  `Reach ok` collects the states of the runs all of whose steps meet the condition
`ok`, and `Reach.invariant` is the one induction over runs: an invariant of the initial states that
every admitted step preserves holds throughout.
-/

namespace Kairo.Lib

/-- Initial states and a partial labelled step. -/
structure Machine (σ ι : Type*) where
  init : σ → Prop
  step : σ → ι → Option σ

namespace Machine

variable {σ ι : Type*} (M : Machine σ ι)

/-- The states reached by the runs whose steps all meet `ok`. -/
inductive Reach (ok : σ → ι → Prop) : σ → Prop
  | init {s : σ} : M.init s → Reach ok s
  | step {s t : σ} {i : ι} : Reach ok s → ok s i → M.step s i = some t → Reach ok t

/-- Every step is allowed. -/
abbrev Reachable : σ → Prop := M.Reach fun _ _ => True

variable {M}

/-- **The invariant rule.** -/
theorem Reach.invariant {ok : σ → ι → Prop} {I : σ → Prop} (h0 : ∀ s, M.init s → I s)
    (hs : ∀ s i t, I s → ok s i → M.step s i = some t → I t) {s : σ} (h : M.Reach ok s) : I s := by
  induction h with
  | init h => exact h0 _ h
  | step _ hok hstep ih => exact hs _ _ _ ih hok hstep

/-- Runs under a stronger condition are runs under a weaker one. -/
lemma Reach.mono {ok ok' : σ → ι → Prop} (h : ∀ s i, ok s i → ok' s i) {s : σ}
    (hr : M.Reach ok s) : M.Reach ok' s := by
  induction hr with
  | init h0 => exact .init h0
  | step _ hok hstep ih => exact .step ih (h _ _ hok) hstep

variable (M)

/-- Runs a list of labels, checking the condition before each step. -/
def exec (ok : σ → ι → Prop) [∀ s i, Decidable (ok s i)] : σ → List ι → Option σ
  | s, [] => some s
  | s, i :: is => if ok s i then (M.step s i).bind fun t => exec ok t is else none

variable {M}

lemma Reach.of_exec {ok : σ → ι → Prop} [∀ s i, Decidable (ok s i)] {s t : σ} {is : List ι}
    (hs : M.Reach ok s) (h : M.exec ok s is = some t) : M.Reach ok t := by
  induction is generalizing s with
  | nil => cases h; exact hs
  | cons i is ih =>
    rw [exec] at h
    split at h
    · rename_i hi
      obtain ⟨u, hu, ht⟩ := Option.bind_eq_some_iff.mp h
      exact ih (.step hs hi hu) ht
    · cases h

/-- A property tested at the end of an executed run holds in a reached state. -/
lemma Reach.exists_of_exec {c : σ → ι → Prop} [∀ s i, Decidable (c s i)] {s : σ} {P : σ → Prop}
    [DecidablePred P] (is : List ι) (hs : M.init s) (h : (M.exec c s is).any (P ·) = true) :
    ∃ t, M.Reach c t ∧ P t := by
  obtain ⟨t, he, h⟩ := (Option.any_eq_true ..).mp h
  exact ⟨t, .of_exec (.init hs) he, of_decide_eq_true h⟩

end Machine

end Kairo.Lib
