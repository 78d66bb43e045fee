import Mathlib.Order.Lattice

/-!
# No circular wait

A wait graph with two kinds of edges: `waits x y`, which leads down an order `descends`, and
`suspends x y`, where `y` was started on top of `x` and `x` goes on only after it.  `since` is the time
when a task was started.  If nothing is started on top of another task while a descendant of it is
suspended, the graph has no cycle: behind the latest edge of the second kind in a cycle there is only a
descent, and it ends in a task that was suspended then.
-/

namespace Kairo.Lib

open Relation

variable {α : Type*} {x y : α}

/-- A path uses an edge of the second relation or none. -/
lemma transGen_or {r s : α → α → Prop} (h : TransGen (fun a b => r a b ∨ s a b) x y) :
    TransGen r x y ∨ ∃ l u, s l u ∧ ReflTransGen (fun a b => r a b ∨ s a b) x l ∧
      ReflTransGen (fun a b => r a b ∨ s a b) u y := by
  induction h with
  | single h =>
    rcases h with h | h
    · exact .inl (.single h)
    · exact .inr ⟨_, _, h, .refl, .refl⟩
  | tail hxy hyz ih =>
    rcases hyz with h | h
    · rcases ih with ih | ⟨l, u, hs, hl, hu⟩
      · exact .inl (ih.tail h)
      · exact .inr ⟨l, u, hs, hl, hu.tail (.inl h)⟩
    · exact .inr ⟨_, _, h, hxy.to_reflTransGen, .refl⟩

variable {waits suspends descends : α → α → Prop} {since : α → ℕ}

/-- Edges of the second kind up to a time. -/
def Until (waits suspends : α → α → Prop) (since : α → ℕ) (t : ℕ) (x y : α) : Prop :=
  waits x y ∨ suspends x y ∧ since y < t

lemma until_mono {t t' : ℕ} (h : t ≤ t') (hxy : Until waits suspends since t x y) :
    Until waits suspends since t' x y :=
  hxy.imp_right fun ⟨hs, ht⟩ => ⟨hs, Nat.lt_of_lt_of_le ht h⟩

/-- A path has a latest edge. -/
lemma exists_until (h : TransGen (fun a b => waits a b ∨ suspends a b) x y) :
    ∃ t, TransGen (Until waits suspends since t) x y := by
  have edge : ∀ {a b : α}, waits a b ∨ suspends a b → Until waits suspends since (since b + 1) a b :=
    fun h => h.imp_right fun hs => ⟨hs, Nat.lt_succ_self _⟩
  induction h with
  | single h => exact ⟨_, .single (edge h)⟩
  | @tail b c _ hbc ih =>
    obtain ⟨t, ih⟩ := ih
    refine ⟨max t (since c + 1), .tail (TransGen.mono (fun _ _ => until_mono (Nat.le_max_left ..)) _
    _ ih) ?_⟩
    exact until_mono (Nat.le_max_right ..) (edge hbc)

section

variable (hwaits : ∀ x y, waits x y → descends x y)
  (htrans : ∀ x y z, descends x y → descends y z → descends x z)
  (hsince : ∀ l u, suspends l u → since l < since u)
  (hfenced : ∀ l u l' u', suspends l u → suspends l' u' → since u' ≤ since u → ¬ descends u l')
include hwaits htrans hsince hfenced

/-- After the latest edge `l`, `u` a path only descends. -/
lemma descends_of_latest {l u y : α} (hs : suspends l u)
    (h : ReflTransGen (Until waits suspends since (since u + 1)) u y) : u = y ∨ descends u y := by
  induction h with
  | refl => exact .inl rfl
  | tail _ hyz ih =>
    rcases hyz with hw | ⟨hs', ht⟩
    · rcases ih with rfl | hd
      · exact .inr (hwaits _ _ hw)
      · exact .inr (htrans _ _ _ hd (hwaits _ _ hw))
    · rcases ih with rfl | hd
      · have := hsince _ _ hs'
        omega
      · exact absurd hd (hfenced _ _ _ _ hs hs' (Nat.le_of_lt_succ ht))

lemma no_cycle_until (hirrefl : ∀ x, ¬ descends x x) (t : ℕ) (x : α) :
    ¬ TransGen (Until waits suspends since t) x x := by
  induction t generalizing x with
  | zero =>
    intro h
    have hd : ∀ {y}, TransGen (Until waits suspends since 0) x y → descends x y := by
      intro y hy
      induction hy with
      | single h => exact hwaits _ _ (h.resolve_right fun hs => Nat.not_lt_zero _ hs.2)
      | tail _ h ih =>
        exact htrans _ _ _ ih (hwaits _ _ (h.resolve_right fun hs => Nat.not_lt_zero _ hs.2))
    exact hirrefl x (hd h)
  | succ t ih =>
    intro h
    have hsplit : ∀ a b, Until waits suspends since (t + 1) a b →
        Until waits suspends since t a b ∨ suspends a b ∧ since b = t := by
      rintro a b (hw | ⟨hs, ht⟩)
      · exact .inl (.inl hw)
      · rcases Nat.lt_succ_iff_lt_or_eq.mp ht with ht | ht
        · exact .inl (.inr ⟨hs, ht⟩)
        · exact .inr ⟨hs, ht⟩
    rcases transGen_or (TransGen.mono hsplit _ _ h) with hcycle | ⟨l, u, ⟨hs, rfl⟩, hxl, hux⟩
    · exact ih x hcycle
    · have hback : ∀ a b, Until waits suspends since (since u) a b ∨
          suspends a b ∧ since b = since u → Until waits suspends since (since u + 1) a b := by
        rintro a b (hab | ⟨hs, ht⟩)
        · exact until_mono (Nat.le_succ _) hab
        · exact .inr ⟨hs, ht ▸ Nat.lt_succ_self _⟩
      have hjoin : ReflTransGen (Until waits suspends since (since u + 1)) u l :=
        ReflTransGen.mono hback _ _ (hux.trans hxl)
      rcases descends_of_latest hwaits htrans hsince hfenced hs hjoin with rfl | hd
      · exact Nat.lt_irrefl _ (hsince _ _ hs)
      · exact hfenced l u l u hs hs (Nat.le_refl _) hd

theorem no_circular_wait (hirrefl : ∀ x, ¬ descends x x) (x : α) :
    ¬ TransGen (fun a b => waits a b ∨ suspends a b) x x := by
  intro h
  obtain ⟨t, ht⟩ := exists_until h
  exact no_cycle_until hwaits htrans hsince hfenced hirrefl t x ht

end

end Kairo.Lib
