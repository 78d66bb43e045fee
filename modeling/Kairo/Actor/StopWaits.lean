import Kairo.Actor.StopTree
import Kairo.Lib.CircularWait

/-!
# Stopping does not wait for itself

Waits lead from an actor to its children.  A cycle needs activations that are suspended below others;
it is ruled out when no worker that waits takes an activation while one of a descendant of its actor
is suspended.
-/

set_option linter.unusedSectionVars false

namespace Kairo.Actor

open Kairo.Lib List Option Machine.Reach

namespace StopTree

variable {N : Type*}

/-- The first path is a proper descendant of the second. -/
def Descends (d a : Path N) : Prop := a <:+ d ∧ a ≠ d

instance [DecidableEq N] (d a : Path N) : Decidable (Descends d a) :=
  inferInstanceAs (Decidable (_ ∧ _))

lemma Descends.trans {a b c : Path N} (h : Descends b a) (h' : Descends c b) : Descends c a := by
  refine ⟨h.1.trans h'.1, ?_⟩
  rintro rfl
  exact h.2 (h.1.eq_of_length_le h'.1.length_le)

lemma descends_cons (n : N) (a : Path N) : Descends (n :: a) a :=
  ⟨suffix_cons n a, fun h => (cons_ne_self n a) h.symm⟩

variable [DecidableEq N]

/-- A worker that waits takes an activation only if no activation of a descendant is suspended. -/
def Careful (w : StopTree N) : Action N → Prop
  | .take k => ∀ stack ∈ w.workers[k]?, stack ≠ [] → ∀ a ∈ w.queue.head?,
    (∀ f ∈ stack, ¬ Descends f.actor a) ∧
      ∀ other ∈ w.workers, ∀ f ∈ other.tail, ¬ Descends f.actor a
  | _ => True

instance (w : StopTree N) (x : Action N) : Decidable (Careful w x) :=
  match x with
  | .take _ => inferInstanceAs (Decidable (∀ stack ∈ _, _))
  | .spawn .. | .tell _ | .requestStop _ | .restart .. | .finish _ | .waitForStop _ | .goOn _ =>
    isTrue trivial

/-- What the stacks of a run have in common. -/
structure Fenced (workers : List (List (Activation N))) (clock : ℕ) : Prop where
  children : ∀ stack ∈ workers, ∀ f ∈ stack, ∀ pending restarts, f.work = .waiting pending restarts →
    ∀ c ∈ pending, Descends c f.actor
  past : ∀ stack ∈ workers, ∀ f ∈ stack, f.since < clock
  stacked : ∀ stack ∈ workers, ∀ f g, [g, f].Sublist stack → f.since < g.since
  /-- When an activation was taken on top of another one, no descendant was suspended. -/
  fenced : ∀ stack ∈ workers, ∀ f g, [g, f].Sublist stack → ∀ stack' ∈ workers, ∀ f' g',
    [g', f'].Sublist stack' → g'.since ≤ g.since → ¬ Descends f'.actor g.actor

variable {workers : List (List (Activation N))} {clock k : ℕ} {stack : List (Activation N)}
  {rest : List (Activation N)} {f : Activation N} {l : List (Activation N)}

/-! ## Changes of one stack -/

lemma pair_sublist_cons {f g x : Activation N} :
    [g, f].Sublist (x :: l) ↔ (g = x ∧ f ∈ l) ∨ [g, f].Sublist l := by
  rw [sublist_cons_iff]
  constructor
  · rintro (h | ⟨r, h, hr⟩)
    · exact .inr h
    · cases h
      exact .inl ⟨rfl, singleton_sublist.mp hr⟩
  · rintro (⟨rfl, h⟩ | h)
    · exact .inr ⟨[f], rfl, singleton_sublist.mpr h⟩
    · exact .inl h

lemma mem_tail_of_pair_sublist {f g : Activation N} (h : [g, f].Sublist l) : f ∈ l.tail := by
  cases l with
  | nil => cases h
  | cons x l =>
    rcases pair_sublist_cons.mp h with ⟨_, hf⟩ | h
    · exact hf
    · exact h.subset (by simp)

/-- A stack is replaced by one whose activations were there before, up to what they are doing. -/
lemma Fenced.replace (h : Fenced workers clock) (hk : workers[k]? = some stack)
    {new : List (Activation N)}
    (hold : ∀ f g, [g, f].Sublist new → ∃ f' g', [g', f'].Sublist stack ∧
      f'.actor = f.actor ∧ g'.actor = g.actor ∧ f'.since = f.since ∧ g'.since = g.since)
    (hmem : ∀ f ∈ new, (∃ f' ∈ stack, f'.since = f.since) ∧
      ∀ pending restarts, f.work = .waiting pending restarts → ∀ c ∈ pending, Descends c f.actor) :
    Fenced (workers.set k new) clock := by
  have hstack : stack ∈ workers := mem_of_getElem? hk
  -- every pair of the new stacks stands for a pair of the old ones
  have hpair : ∀ s ∈ workers.set k new, ∀ f g, [g, f].Sublist s → ∃ s' ∈ workers, ∃ f' g',
      [g', f'].Sublist s' ∧ f'.actor = f.actor ∧ g'.actor = g.actor ∧ f'.since = f.since ∧
        g'.since = g.since := by
    intro s hs f g hfg
    rcases mem_or_eq_of_mem_set hs with hs | rfl
    · exact ⟨s, hs, f, g, hfg, rfl, rfl, rfl, rfl⟩
    · exact ⟨stack, hstack, hold f g hfg⟩
  refine ⟨fun s hs f hf => ?_, fun s hs f hf => ?_, fun s hs f g hfg => ?_,
    fun s hs f g hfg s' hs' f' g' hfg' hle => ?_⟩
  · rcases mem_or_eq_of_mem_set hs with hs | rfl
    · exact h.children s hs f hf
    · exact (hmem f hf).2
  · rcases mem_or_eq_of_mem_set hs with hs | rfl
    · exact h.past s hs f hf
    · obtain ⟨⟨f', hf', he⟩, _⟩ := hmem f hf
      exact he ▸ h.past stack hstack f' hf'
  · obtain ⟨s0, hs0, f0, g0, h0, _, _, hf0, hg0⟩ := hpair s hs f g hfg
    rw [← hf0, ← hg0]
    exact h.stacked s0 hs0 f0 g0 h0
  · obtain ⟨s0, hs0, f0, g0, h0, _, hga, _, hg0⟩ := hpair s hs f g hfg
    obtain ⟨s1, hs1, f1, g1, h1, hfa, _, _, hg1⟩ := hpair s' hs' f' g' hfg'
    rw [← hga, ← hfa]
    exact h.fenced s0 hs0 f0 g0 h0 s1 hs1 f1 g1 h1 (by rwa [hg0, hg1])

lemma Fenced.work (h : Fenced workers clock) (hk : workers[k]? = some (f :: rest)) {work : Work N}
    (hw : ∀ pending restarts, work = .waiting pending restarts →
      ∀ c ∈ pending, Descends c f.actor) :
    Fenced (workers.set k ({ f with work } :: rest)) clock := by
  have hstack : f :: rest ∈ workers := mem_of_getElem? hk
  refine h.replace hk (fun x y hxy => ?_) fun x hx => ?_
  · rcases pair_sublist_cons.mp hxy with ⟨rfl, hx⟩ | hxy
    · exact ⟨x, f, pair_sublist_cons.mpr (.inl ⟨rfl, hx⟩), rfl, rfl, rfl, rfl⟩
    · exact ⟨x, y, hxy.trans (sublist_cons_self _ _), rfl, rfl, rfl, rfl⟩
  · rcases mem_cons.mp hx with rfl | hx
    · exact ⟨⟨f, mem_cons_self, rfl⟩, hw⟩
    · exact ⟨⟨x, mem_cons_of_mem _ hx, rfl⟩, h.children _ hstack x (mem_cons_of_mem _ hx)⟩

lemma Fenced.pop (h : Fenced workers clock)
    (hk : workers[k]? = some (f :: rest)) : Fenced (workers.set k rest) clock :=
  h.replace hk
    (fun x y hxy => ⟨x, y, hxy.trans (sublist_cons_self _ _), rfl, rfl, rfl, rfl⟩)
    fun x hx => ⟨⟨x, mem_cons_of_mem _ hx, rfl⟩,
      h.children _ (mem_of_getElem? hk) x (mem_cons_of_mem _ hx)⟩

/-- **A worker takes an activation.** -/
theorem Fenced.push (h : Fenced workers clock) (hk : workers[k]? = some stack) {a : Path N}
    (hcareful : stack ≠ [] → (∀ f ∈ stack, ¬ Descends f.actor a) ∧
      ∀ other ∈ workers, ∀ f ∈ other.tail, ¬ Descends f.actor a) :
    Fenced (workers.set k (⟨a, .running, clock⟩ :: stack)) (clock + 1) := by
  have hstack : stack ∈ workers := mem_of_getElem? hk
  -- a pair of the new stacks is an old one, or the new activation on top of an old one
  have hpair : ∀ s ∈ workers.set k (⟨a, .running, clock⟩ :: stack), ∀ f g, [g, f].Sublist s →
      (∃ s' ∈ workers, [g, f].Sublist s') ∨ g = ⟨a, .running, clock⟩ ∧ f ∈ stack := by
    intro s hs f g hfg
    rcases mem_or_eq_of_mem_set hs with hs | rfl
    · exact .inl ⟨s, hs, hfg⟩
    · rcases pair_sublist_cons.mp hfg with hnew | hfg
      · exact .inr hnew
      · exact .inl ⟨stack, hstack, hfg⟩
  have hold : ∀ s ∈ workers.set k (⟨a, .running, clock⟩ :: stack), ∀ f ∈ s,
      f = ⟨a, .running, clock⟩ ∨ ∃ s' ∈ workers, f ∈ s' := by
    intro s hs f hf
    rcases mem_or_eq_of_mem_set hs with hs | rfl
    · exact .inr ⟨s, hs, hf⟩
    · rcases mem_cons.mp hf with rfl | hf
      · exact .inl rfl
      · exact .inr ⟨stack, hstack, hf⟩
  refine ⟨fun s hs f hf => ?_, fun s hs f hf => ?_, fun s hs f g hfg => ?_,
    fun s hs f g hfg s' hs' f' g' hfg' hle => ?_⟩
  · rcases hold s hs f hf with rfl | ⟨s', hs', hf'⟩
    · rintro pending restarts ⟨⟩
    · exact h.children s' hs' f hf'
  · rcases hold s hs f hf with rfl | ⟨s', hs', hf'⟩
    · exact Nat.lt_succ_self _
    · exact Nat.lt_succ_of_lt (h.past s' hs' f hf')
  · rcases hpair s hs f g hfg with ⟨s', hs', hfg'⟩ | ⟨rfl, hf⟩
    · exact h.stacked s' hs' f g hfg'
    · exact h.past stack hstack f hf
  · rcases hpair s hs f g hfg with ⟨s0, hs0, h0⟩ | ⟨rfl, hf⟩
    · rcases hpair s' hs' f' g' hfg' with ⟨s1, hs1, h1⟩ | ⟨rfl, _⟩
      · exact h.fenced s0 hs0 f g h0 s1 hs1 f' g' h1 hle
      · have := h.past s0 hs0 g (h0.subset (by simp))
        exact absurd hle (Nat.not_le.mpr this)
    · obtain ⟨hown, hothers⟩ := hcareful (ne_nil_of_mem hf)
      rcases hpair s' hs' f' g' hfg' with ⟨s1, hs1, h1⟩ | ⟨_, hf'⟩
      · exact hothers s1 hs1 f' (mem_tail_of_pair_sublist h1)
      · exact hown f' hf'

/-! ## The step and the run -/

variable {w v : StopTree N}

@[simp]
lemma schedule_workers (a : Path N) : (w.schedule a).workers = w.workers := by
  unfold schedule
  split <;> rfl

@[simp]
lemma schedule_clock (a : Path N) : (w.schedule a).clock = w.clock := by
  unfold schedule
  split <;> rfl

@[simp]
lemma requestStop_workers (a : Path N) : (w.requestStop a).workers = w.workers := by
  unfold requestStop
  split
  · rfl
  · exact schedule_workers a

@[simp]
lemma requestStop_clock (a : Path N) : (w.requestStop a).clock = w.clock := by
  unfold requestStop
  split
  · rfl
  · exact schedule_clock a

lemma foldl_requestStop_clock (children : List (Path N)) :
    (children.foldl requestStop w).clock = w.clock := by
  induction children generalizing w with
  | nil => rfl
  | cons c children ih => exact ih.trans (requestStop_clock c)

lemma Fenced.stopChildren (h : Fenced w.workers w.clock) (hk : w.workers[k]? = some (f :: rest))
    {children : List (Path N)}
    (hc : ∀ c ∈ children, c ∈ w.childHandles f.actor) (restarts : Bool) :
    Fenced (w.stopChildren k f rest children restarts).workers
      (w.stopChildren k f rest children restarts).clock := by
  show Fenced (w.workers.set k _) (children.foldl StopTree.requestStop w).clock
  rw [foldl_requestStop_clock]
  refine h.work hk fun pending _ hw c hp => ?_
  cases hw
  obtain ⟨hne, htail⟩ : c ≠ [] ∧ c.tail = f.actor := by
    simpa using (mem_filter.mp (hc c hp)).2
  cases c with
  | nil => exact absurd rfl hne
  | cons n p =>
    obtain rfl : p = f.actor := htail
    exact descends_cons n _

lemma Fenced.step (h : Fenced w.workers w.clock) {x : Action N} (hx : Careful w x)
    (ht : w.step x = some v) : Fenced v.workers v.clock := by
  cases x with
  | spawn name parent | tell a =>
    rw [StopTree.step] at ht
    split at ht
    · cases ht
      rw [schedule_workers, schedule_clock]
      exact h
    · cases ht
  | requestStop a =>
    rw [StopTree.step] at ht
    split at ht
    · cases ht
      rw [requestStop_workers, requestStop_clock]
      exact h
    · cases ht
  | take k =>
    obtain ⟨stack, hk, ht⟩ := bind_eq_some_iff.mp ht
    cases hq : w.queue with
    | nil => rw [hq] at ht; cases ht
    | cons a queue =>
      rw [hq] at ht
      dsimp only at ht
      split at ht
      · cases ht
        exact h.push hk fun hne => hx stack hk hne a (by rw [hq]; rfl)
      · cases ht
  | restart k preserved =>
    obtain ⟨stack, hk, ht⟩ := bind_eq_some_iff.mp ht
    cases stack with
    | nil => cases ht
    | cons f rest =>
      dsimp only at ht
      split at ht
      · cases ht
        exact h.stopChildren hk (fun c hc => (mem_filter.mp hc).1) true
      · cases ht
  | finish k =>
    obtain ⟨stack, hk, ht⟩ := bind_eq_some_iff.mp ht
    cases stack with
    | nil => cases ht
    | cons f rest =>
      dsimp only at ht
      split at ht
      · split at ht <;> cases ht
        · exact h.stopChildren hk (fun _ => id) false
        · exact h.pop hk
      · cases ht
  | waitForStop k =>
    obtain ⟨stack, hk, ht⟩ := bind_eq_some_iff.mp ht
    cases stack with
    | nil => cases ht
    | cons f rest =>
      dsimp only at ht
      split at ht
      · rename_i c pending restarts hf
        split at ht
        · cases ht
          refine h.work hk fun _ _ hw d hd => ?_
          cases hw
          exact h.children _ (mem_of_getElem? hk) f mem_cons_self _ _ hf d (mem_cons_of_mem _ hd)
        · cases ht
      · cases ht
  | goOn k =>
    obtain ⟨stack, hk, ht⟩ := bind_eq_some_iff.mp ht
    cases stack with
    | nil => cases ht
    | cons f rest =>
      dsimp only at ht
      split at ht
      · cases ht
        exact h.work hk nofun
      · cases ht
        exact h.pop hk
      · cases ht

lemma fenced_start (n : ℕ) :
    Fenced (start n : StopTree N).workers (start n : StopTree N).clock := by
  have hnil : ∀ s ∈ replicate n ([] : List (Activation N)), s = [] :=
    fun s hs => eq_of_mem_replicate hs
  refine ⟨fun s hs f hf => ?_, fun s hs f hf => ?_, fun s hs f g hfg => ?_,
    fun s hs f g hfg => ?_⟩
  · cases hnil s hs ▸ hf
  · cases hnil s hs ▸ hf
  all_goals cases hnil s hs ▸ hfg

lemma Fenced.no_cycle (h : Fenced w.workers w.clock) (f : Activation N) :
    ¬ Relation.TransGen (fun x y => w.Waits x y ∨ w.Suspends x y) f f := by
  refine @no_circular_wait _ w.Waits w.Suspends (fun x y => Descends y.actor x.actor)
    Activation.since ?_ (fun x y z => Descends.trans) ?_ ?_ (fun x hx => hx.2 rfl) f
  · rintro x y ⟨⟨s, hs, hx⟩, _, pending, restarts, hw⟩
    exact h.children s hs x hx _ _ hw _ mem_cons_self
  · rintro l u ⟨s, hs, hlu⟩
    exact h.stacked s hs l u hlu
  · rintro l u l' u' ⟨s, hs, hlu⟩ ⟨s', hs', hlu'⟩ hle
    exact h.fenced s hs l u hlu s' hs' l' u' hlu' hle

lemma not_waitsForItself (h : ∀ f, ¬ Relation.TransGen
    (fun x y => w.Waits x y ∨ w.Suspends x y) f f) : ¬ w.WaitsForItself := by
  rintro ⟨s, hs, f, g, hfg, hwait⟩
  have hwaits : w.Waits f g :=
    ⟨⟨s, hs, hfg.subset (by simp)⟩, ⟨s, hs, hfg.subset (by simp)⟩, hwait⟩
  exact h f (.tail (.single (.inl hwaits)) (.inr ⟨s, hs, hfg⟩))

/-- **Stopping does not wait for itself.**  In every run in which a waiting worker takes an activation
only while no activation of a descendant is suspended: no stack waits for an actor whose activation is
suspended lower on it, and there is no cycle of activations, on any number of workers, of which each
waits for the actor of the next one or is suspended below it. -/
theorem stop_not_circular {workers : ℕ} (h : (machine workers).Reach Careful w) :
    ¬ w.WaitsForItself ∧
      ∀ f, ¬ Relation.TransGen (fun x y => w.Waits x y ∨ w.Suspends x y) f f := by
  have hf : Fenced w.workers w.clock :=
    invariant (I := fun w => Fenced w.workers w.clock)
      (fun w (h0 : w = start workers) => h0 ▸ fenced_start workers)
      (fun _ _ _ hi hx ht => Fenced.step hi hx ht) h
  exact ⟨not_waitsForItself hf.no_cycle, hf.no_cycle⟩

/-! ## Stop requests on two levels -/

/-- Three actors in a line, the second and the first asked to stop; the worker takes the first while
the second waits for the third. -/
def twoLevels : List (Action ℕ) :=
  [.spawn 0 [], .spawn 1 [0], .spawn 2 [1, 0], .take 0, .finish 0, .take 0, .finish 0, .take 0,
    .finish 0, .requestStop [1, 0], .requestStop [0], .take 0, .finish 0, .take 0, .finish 0]

/-- One worker waits for the second actor, which waits below for the third. -/
theorem stop_waits_for_itself :
    ∃ w : StopTree ℕ, (machine 1).Reachable w ∧ w.WaitsForItself := by
  obtain ⟨w, hw, h⟩ := exists_of_exec (M := machine 1) (c := fun _ _ => True)
    (P := fun w => w.workers = [[⟨[0], .waiting [[1, 0]] false, 4⟩,
      ⟨[1, 0], .waiting [[2, 1, 0]] false, 3⟩]]) twoLevels rfl (by decide +kernel)
  refine ⟨w, hw, _, ?_, ⟨[0], .waiting [[1, 0]] false, 4⟩,
    ⟨[1, 0], .waiting [[2, 1, 0]] false, 3⟩, .refl _, _, _, rfl⟩
  rw [h]
  exact mem_cons_self

/-- The same requests, with the third actor's activation taken first. -/
def leafFirst : List (Action ℕ) :=
  [.spawn 0 [], .spawn 1 [0], .spawn 2 [1, 0], .take 0, .finish 0, .take 0, .finish 0, .take 0,
    .finish 0, .requestStop [1, 0], .take 0, .finish 0, .requestStop [0], .take 0, .finish 0]

theorem stop_not_circular_leafFirst :
    ∃ w : StopTree ℕ, (machine 1).Reach Careful w ∧ w.workers.map List.length = [2] ∧
      ¬ w.WaitsForItself := by
  obtain ⟨w, hw, h⟩ := exists_of_exec (M := machine 1)
    (c := Careful) (P := fun w => w.workers.map length = [2])
    leafFirst rfl (by decide +kernel)
  exact ⟨w, hw, h, (stop_not_circular hw).1⟩

end StopTree

end Kairo.Actor
