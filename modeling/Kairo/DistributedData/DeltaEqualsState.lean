import Kairo.DistributedData.MergeOrder
import Kairo.DistributedData.Replicas

/-!
# Delta against state

A replica `b` gets what replica `r` has done since the state `a`, as the accumulated delta or as the
full state.  The elements can differ: a replayed add takes over an element that `b` does not hold
without asking whether `b` has seen the dot, and the next add of that element drops it again.  What is
followed here is one element at a time, along the local operations.
-/

namespace Kairo.DistributedData

open Kairo.Lib DeltaReplicatedData ORSetCore FinMap Cluster
open ORSet hiding new
open List hiding contains
open VersionVector hiding new

variable {T R : Type*} [LinearOrder T] [DecidableEq R]

/-! ## Local operations -/

namespace ORSet

abbrev clock (s : ORSet T R) (r : R) : ℕ := s.versionVector.versionAt r

/-- Every add gets a dot of its own: the counter of the replica has not reached its end. -/
def Unsaturated (r : R) (a : ORSet T R) (ops : List (SetUpdate T)) : Prop :=
  ∀ before y, before ++ [.add y] <+: ops → (before.foldl (ORSet.update r) a).clock r < Cluster.u64Max

variable {r : R} {a b c : ORSet T R} {x y : T} {ops : List (SetUpdate T)} {c' : ORSet T R}

lemma Valid.update (hc : c.Valid) (r : R) : (u : SetUpdate T) → (c.update r u).Valid
  | .add x => hc.perform (.add r x) trivial trivial
  | .remove x => hc.perform (.remove r x) trivial trivial

lemma Valid.updates (hc : c.Valid) (r : R) (ops : List (SetUpdate T)) :
    (ops.foldl (ORSet.update r) c).Valid :=
  foldlRecOn ops _ (motive := Valid) hc fun _ hc u _ => hc.update r u

lemma hasDot_add (hmax : c.clock r < u64Max) (x y : T) (q : R) (n : ℕ) :
    (c.add r y).HasDot x q n ↔ if x = y then q = r ∧ n = c.clock r + 1 else c.HasDot x q n :=
  ORSetCore.hasDot_add hmax

lemma clock_add (hmax : c.clock r < u64Max) (y : T) (q : R) :
    (c.add r y).clock q = if q = r then c.clock r + 1 else c.clock q := by
  have h := versionAt_add c.toORSetCore r y q
  rw [min_eq_left (Nat.succ_le_of_lt hmax)] at h
  exact h

lemma toORSetCore_remove (s : ORSet T R) (r : R) (x : T) :
    (s.remove r x).toORSetCore = s.toORSetCore.remove x := by
  rw [remove]
  split_ifs with h
  · rfl
  · rw [contains, Option.not_isSome_iff_eq_none] at h
    have he : s.elements.erase x = s.elements := Finmap.ext_lookup fun y => by
      rw [lookup_erase]
      split_ifs with hy
      · rw [hy, h]
      · rfl
    rw [ORSetCore.remove, he]

lemma hasDot_remove (r : R) (x y : T) (q : R) (n : ℕ) :
    (c.remove r y).HasDot x q n ↔ x ≠ y ∧ c.HasDot x q n := by
  rw [toORSetCore_remove]
  exact ORSetCore.hasDot_remove

lemma clock_remove (c : ORSet T R) (r : R) (y : T) (q : R) : (c.remove r y).clock q = c.clock q := by
  rw [clock, toORSetCore_remove]
  rfl

lemma hasDot_merge (hb : b.Valid) (hc : c.Valid) (x : T) (q : R) (n : ℕ) :
    (b.merge c).HasDot x q n ↔ b.HasDot x q n ∧ c.HasDot x q n ∨
      b.HasDot x q n ∧ c.clock q < n ∨ c.HasDot x q n ∧ b.clock q < n :=
  hasDot_merge_iff hb.covered hc.covered hb.wellFormed.dotsPositive

lemma below_update (hc : c.Valid) {u : SetUpdate T}
    (hmax : ∀ y, u = .add y → c.clock r < u64Max) : MergeBelow c (c.update r u) := by
  have hv := hc.update r u
  refine congrArg (mk · none) (ext_of_hasDot (hc.merge hv).wellFormed.inhabited
    hv.wellFormed.inhabited (hc.merge hv).wellFormed.positive hv.wellFormed.positive
    (fun x q n => (hasDot_merge hc hv x q n).trans ?_)
    fun q => (versionAt_merge _ _ q).trans (max_eq_right ?_))
  · have hcov := hc.covered x q n
    cases u with
    | add y =>
      have hadd := hasDot_add (hmax y rfl) x y q n
      have hclock := clock_add (hmax y rfl) y q
      rw [update, hadd, hclock]
      grind
    | remove y =>
      rw [update, hasDot_remove, clock_remove]
      grind
  · cases u with
    | add y =>
      refine le_of_le_of_eq ?_ (clock_add (hmax y rfl) y q).symm
      split_ifs with h
      · rw [h]
        exact Nat.le_succ _
      · exact le_rfl
    | remove y => exact (clock_remove c r y q).ge

lemma below_updates (ha : a.Valid) (hmax : Unsaturated r a ops) :
    MergeBelow a (ops.foldl (ORSet.update r) a) := by
  induction ops using reverseRecOn with
  | nil => exact mergeLaws.below_refl ha
  | append_singleton ops u ih =>
    have hmid := ha.updates r ops
    rw [foldl_append]
    refine mergeLaws.below_trans ha hmid (hmid.update r u)
      (ih fun before y h => hmax before y (h.trans (prefix_append _ _)))
      (below_update hmid fun y hy => hmax ops y ?_)
    rw [hy]

/-! ## Replaying -/

/-- `b` after the pending delta of `c`. -/
def replayed (b c : ORSet T R) : ORSetCore T R :=
  (deltaOps c.delta).foldl ORSetCore.replay b.toORSetCore

lemma replayed_add (hmax : c.clock r < u64Max) (y : T) :
    replayed b (c.add r y) = (replayed b c).mergeAddDelta (single y r (c.clock r + 1)) := by
  rw [replayed, add]
  rw [deltaOps_mergeOptionalDelta, versionAt_increment, if_pos rfl,
    min_eq_left (Nat.succ_le_of_lt hmax), foldl_append]
  rfl

lemma replayed_remove (hy : c.contains y = true) : replayed b (c.remove r y) =
    (replayed b c).mergeRemoveDelta ⟨y, c.versionVector, .one r (c.clock r)⟩ := by
  rw [replayed, remove, if_pos hy, deltaOps_mergeOptionalDelta, foldl_append]
  rfl

/-- What every replay keeps. -/
structure Replays (b : ORSet T R) (r : R) (c : ORSet T R) : Prop where
  valid : c.Valid
  covered : (replayed b c).Covered
  wellFormed : (replayed b c).WellFormed
  context : (replayed b c).versionVector.versionAt r = max (b.clock r) (c.clock r)

lemma Replays.add (h : Replays b r c) (hmax : c.clock r < u64Max) (y : T) :
    Replays b r (c.add r y) := by
  refine ⟨h.valid.update r (.add y), ?_, ?_, ?_⟩ <;> rw [replayed_add hmax]
  · exact h.covered.mergeAddDelta covered_single
  · exact h.wellFormed.mergeAddDelta (wellFormed_single (Nat.succ_ne_zero _) hmax)
  · have hmerge := versionAt_merge (replayed b c).versionVector (.one r (c.clock r + 1)) r
    rw [h.context, versionAt_one, if_pos rfl] at hmerge
    rw [clock_add hmax, if_pos rfl]
    exact hmerge.trans (by omega)

lemma Replays.remove (h : Replays b r c) (y : T) : Replays b r (c.remove r y) := by
  have hvalid := h.valid.update r (.remove y)
  by_cases hy : c.contains y = true
  · refine ⟨hvalid, ?_, ?_, ?_⟩ <;> rw [replayed_remove hy]
    · exact h.covered.mergeRemoveDelta
    · refine h.wellFormed.mergeRemoveDelta (positive_one _ _) fun q => ?_
      rw [versionAt_one]
      split_ifs
      · exact h.valid.wellFormed.bounded r
      · exact Nat.zero_le _
    · have hmerge := versionAt_merge (replayed b c).versionVector (.one r (c.clock r)) r
      rw [h.context, versionAt_one, if_pos rfl] at hmerge
      rw [clock_remove]
      exact hmerge.trans (max_eq_left (le_max_right _ _))
  · rw [ORSet.remove, if_neg hy]
    exact h

/-! ## One element -/

/-- How the replayed dots of an element follow the merged ones.  An element is `stale` when the replay
has brought it back and the merge has not. -/
structure Follows (b : ORSet T R) (r : R) (x : T) (c : ORSet T R) (stale : Bool) : Prop
    extends Replays b r c where
  kept : ∀ q n, (b.merge c).HasDot x q n → (replayed b c).HasDot x q n
  bounded : ∀ q n, (replayed b c).HasDot x q n → (b.merge c).HasDot x q n ∨ n ≤ c.clock q
  present : ∀ q n, (replayed b c).HasDot x q n → stale = true ∨ ∃ q n, (b.merge c).HasDot x q n
  revived : stale = true → (∃ q n, (replayed b c).HasDot x q n) ∧ (∀ q n, ¬ (b.merge c).HasDot x q n) ∧
    (∃ q n, c.HasDot x q n) ∧ ∀ q n, (replayed b c).HasDot x q n → q = r

/-- What `b` has seen of the local operations brings nothing new. -/
lemma hasDot_of_merge_eq (hb : b.Valid) (hc : c.Valid)
    (h : (b.merge c').toORSetCore = b.toORSetCore) (hle : ∀ q, c.clock q ≤ c'.clock q) {q : R}
    {n : ℕ} (hm : (b.merge c).HasDot x q n) : (b.merge c').HasDot x q n := by
  have hvv := versionAt_merge b.toORSetCore c'.toORSetCore q
  rw [show b.toORSetCore.merge c'.toORSetCore = b.toORSetCore from h] at hvv
  rw [h]
  rcases (hasDot_merge hb hc x q n).mp hm with hd | hd | hd
  · exact hd.1
  · exact hd.1
  · have hseen := ((hc.covered x q n hd.1).trans (hle q)).trans
      (le_of_le_of_eq (le_max_right _ _) hvv.symm)
    exact absurd hd.2 (not_lt_of_ge hseen)

variable {stale : Bool}

lemma Follows.congr (h : Follows b r x c stale) (hr : Replays b r c')
    (hM : ∀ q n, (b.merge c').HasDot x q n ↔ (b.merge c).HasDot x q n)
    (hS : ∀ q n, (replayed b c').HasDot x q n ↔ (replayed b c).HasDot x q n)
    (hC : ∀ q n, c'.HasDot x q n ↔ c.HasDot x q n) (hV : ∀ q, c.clock q ≤ c'.clock q) :
    Follows b r x c' stale := by
  refine ⟨hr, fun q n => ?_, fun q n => ?_, fun q n => ?_, ?_⟩ <;> simp only [hM, hS, hC]
  · exact h.kept q n
  · exact fun hd => (h.bounded q n hd).imp_right fun hn => hn.trans (hV q)
  · exact h.present q n
  · exact h.revived

section Add

variable (h : Follows b r x c stale) (hb : b.Valid) (hmax : c.clock r < Cluster.u64Max)
  (hseen : c.clock r + 1 ≤ b.clock r → (b.merge (c.add r y)).toORSetCore = b.toORSetCore)

include hmax in
lemma clock_le_add (y : T) (q : R) : c.clock q ≤ (c.add r y).clock q := by
  rw [clock_add hmax]
  grind

include h hb hmax hseen

lemma Follows.add_other (hxy : x ≠ y) : Follows b r x (c.add r y) stale := by
  have hr := h.toReplays.add hmax y
  have hadd : ∀ q n, (c.add r y).HasDot x q n ↔ c.HasDot x q n := fun q n => by
    rw [hasDot_add hmax, if_neg hxy]
  refine h.congr hr (fun q n => ?_) (fun q n => ?_) hadd (clock_le_add hmax y)
  · constructor
    · have := clock_le_add hmax y q
      rw [hasDot_merge hb hr.valid, hasDot_merge hb h.valid, hadd]
      rintro (hd | hd | hd)
      · exact .inl hd
      · exact .inr (.inl ⟨hd.1, by omega⟩)
      · exact .inr (.inr hd)
    · -- the new dot is not one of the element
      intro hm
      by_cases hle : c.clock r + 1 ≤ b.clock r
      · exact hasDot_of_merge_eq hb h.valid (hseen hle) (clock_le_add hmax y) hm
      · have := hb.covered x q n
        rw [hasDot_merge hb h.valid] at hm
        rw [hasDot_merge hb hr.valid, hadd, clock_add hmax]
        grind
  · rw [replayed_add hmax, hasDot_mergeAddDelta_iff h.covered h.wellFormed.dotsPositive
      (Nat.succ_ne_zero _), if_neg hxy]

/-- **An add of the element**: if `b` does not hold it and has seen the dot, the replay brings it back,
and the next such add drops it again. -/
theorem Follows.add_self (hxy : y = x) : Follows b r x (c.add r y)
    (decide (c.clock r + 1 ≤ b.clock r) && !b.contains x && !stale) := by
  subst hxy
  have hr := h.toReplays.add hmax y
  have hM := hasDot_merge hb h.valid y
  have hM' := hasDot_merge hb hr.valid y
  have hadd : ∀ q n, (c.add r y).HasDot y q n ↔ q = r ∧ n = c.clock r + 1 :=
    fun q n => by rw [hasDot_add hmax, if_pos rfl]
  have hclock := clock_add hmax y
  have hS : ∀ q n, ((replayed b c).mergeAddDelta (single y r (c.clock r + 1))).HasDot y q n ↔ _ :=
    fun q n => (hasDot_mergeAddDelta_iff h.covered h.wellFormed.dotsPositive
      (Nat.succ_ne_zero _)).trans (if_pos rfl).to_iff
  rw [← replayed_add hmax, contains_iff_hasDot h.wellFormed.inhabited, h.context] at hS
  have hcov := h.valid.covered y
  refine ⟨hr, fun q n => ?_, fun q n => ?_, fun q n hd => ?_, fun hp => ?_⟩
  · have hkept := h.kept q n
    rw [hM] at hkept
    rw [hM', hS, hadd, hclock]
    by_cases hq : q = r
    · subst hq
      rw [if_pos rfl]
      rintro (⟨hd, -, rfl⟩ | ⟨hd, hlt⟩ | ⟨⟨-, rfl⟩, hlt⟩)
      · exact .inl ⟨hkept (.inr (.inl ⟨hd, by omega⟩)), fun _ => le_rfl⟩
      · exact .inl ⟨hkept (.inr (.inl ⟨hd, by omega⟩)), fun _ => by omega⟩
      · exact .inr ⟨⟨rfl, rfl⟩, fun _ => by omega⟩
    · grind
  · have := h.bounded q n
    grind
  · by_cases hle : c.clock r + 1 ≤ b.clock r
    · rw [hseen hle, ← contains_iff_hasDot hb.wellFormed.inhabited]
      cases hbx : b.contains y with
      | true => exact .inr rfl
      | false =>
        cases stale with
        | false => exact .inl (by simp [hle])
        | true =>
          obtain ⟨hsome, hnone, -, hown⟩ := h.revived rfl
          have := h.bounded q n
          grind
    · exact .inr ⟨r, c.clock r + 1, (hM' _ _).mpr (by grind)⟩
  · simp only [Bool.and_eq_true, decide_eq_true_eq, Bool.not_eq_true'] at hp
    obtain ⟨⟨hle, hbx⟩, rfl⟩ := hp
    have hnone : ∀ q n, ¬ (b.merge (c.add r y)).HasDot y q n := by
      rw [hseen hle]
      intro q n hd
      rw [(contains_iff_hasDot hb.wellFormed.inhabited).mpr ⟨q, n, hd⟩] at hbx
      cases hbx
    have hnothing : ∀ q n, ¬ (replayed b c).HasDot y q n := by
      intro q n hd
      obtain ⟨q, n, hm⟩ := (h.present q n hd).resolve_left (by decide)
      exact hnone q n (hasDot_of_merge_eq hb h.valid (hseen hle) (clock_le_add hmax y) hm)
    refine ⟨⟨r, c.clock r + 1, (hS _ _).mpr (.inr ⟨⟨rfl, rfl⟩, ?_⟩)⟩, hnone,
      ⟨r, _, (hadd _ _).mpr ⟨rfl, rfl⟩⟩, fun q n hd => ?_⟩
    · rintro ⟨q, n, hd⟩
      exact absurd hd (hnothing q n)
    · exact ((hS q n).mp hd).elim (fun hd => absurd hd.1 (hnothing q n)) fun hd => hd.1.1

end Add

/-- **One remove**: the replay drops the element where the merge does. -/
theorem Follows.remove (h : Follows b r x c stale) (hb : b.Valid) (y : T) :
    Follows b r x (c.remove r y) (if y = x then false else stale) := by
  have hr := h.toReplays.remove y
  have hM := hasDot_merge hb h.valid x
  have hM' := hasDot_merge hb hr.valid x
  simp only [clock_remove, hasDot_remove] at hM'
  by_cases hy : c.contains y = true
  · have hS : ∀ q n, (replayed b (c.remove r y)).HasDot x q n ↔ (replayed b c).HasDot x q n ∧
        (x = y → ∃ q n, (replayed b c).HasDot x q n ∧ c.clock q < n) := fun q n => by
      rw [replayed_remove hy]
      exact hasDot_mergeRemoveDelta
    have hcov := h.valid.covered x
    split_ifs with hxy
    · subst hxy
      refine ⟨hr, fun q n hd => ?_, fun q n hd => ?_, fun q n hd => .inr ?_, fun hf => by cases hf⟩
      · have := h.kept q n
        grind
      · have := h.bounded q n
        have := clock_remove c r y q
        grind
      · -- a dot that the remove had not seen keeps the element on both sides
        obtain ⟨q', n', hd', hlt⟩ := ((hS q n).mp hd).2 rfl
        have := h.bounded q' n' hd'
        exact ⟨q', n', by grind⟩
    · have hne : x ≠ y := Ne.symm hxy
      refine h.congr hr (fun q n => ?_) (fun q n => ?_) (fun q n => ?_) fun q =>
        (clock_remove c r y q).ge
      · rw [hM, hM', and_iff_right hne]
      · rw [hS, and_iff_left fun e => absurd e hne]
      · rw [hasDot_remove, and_iff_right hne]
  · rw [ORSet.remove, if_neg hy]
    split_ifs with hxy
    · cases stale with
      | false => exact h
      | true =>
        rw [hxy, contains_iff_hasDot h.valid.wellFormed.inhabited] at hy
        exact absurd (h.revived rfl).2.2.1 hy
    · exact h

/-! ## All operations -/

/-- One operation of the sequence, for an element: the number of the last add, and whether the replay
has brought the element back. -/
def staleStep (b : ORSet T R) (r : R) (x : T) : ℕ × Bool → SetUpdate T → ℕ × Bool
  | (n, stale), .add y => (n + 1,
    if y = x then decide (n + 1 ≤ b.clock r) && !b.contains x && !stale else stale)
  | (n, stale), .remove y => (n, if y = x then false else stale)

/-- The element is not in `b`, and the adds of it after its last remove are odd in number and all seen
by `b`. -/
def Stale (b : ORSet T R) (r : R) (n : ℕ) (ops : List (SetUpdate T)) (x : T) : Bool :=
  (ops.foldl (staleStep b r x) (n, false)).2

/-- As far as `b` has seen the adds, a merge of the state after an add brings nothing new. -/
def Sees (b : ORSet T R) (r : R) (c : ORSet T R) (ops : List (SetUpdate T)) : Prop :=
  ∀ before y, before ++ [SetUpdate.add y] <+: ops →
    (before.foldl (ORSet.update r) c).clock r + 1 ≤ b.clock r →
    (b.merge ((before.foldl (ORSet.update r) c).add r y)).toORSetCore = b.toORSetCore

lemma follows_updates (hb : b.Valid) (hmax : Unsaturated r c ops)
    (hseen : Sees b r c ops) (h : Follows b r x c stale) :
    Follows b r x (ops.foldl (update r) c)
      (ops.foldl (staleStep b r x) (c.clock r, stale)).2 := by
  induction ops generalizing c stale with
  | nil => exact h
  | cons u ops ih =>
    have hmax' : Unsaturated r (c.update r u) ops := fun before y hp =>
      hmax (u :: before) y (cons_prefix_cons.mpr ⟨rfl, hp⟩)
    have hseen' : Sees b r (c.update r u) ops := fun before y hp =>
      hseen (u :: before) y (cons_prefix_cons.mpr ⟨rfl, hp⟩)
    cases u with
    | add y =>
      have hfirst : [] ++ [SetUpdate.add y] <+: .add y :: ops :=
        cons_prefix_cons.mpr ⟨rfl, nil_prefix⟩
      have hlt : c.clock r < u64Max := hmax [] y hfirst
      have hflag : Follows b r x (c.add r y)
          (if y = x then decide (c.clock r + 1 ≤ b.clock r) && !b.contains x && !stale else stale) := by
        split_ifs with hxy
        · exact h.add_self hb hlt (hseen [] y hfirst) hxy
        · exact h.add_other hb hlt (hseen [] y hfirst) (Ne.symm hxy)
      have hstep := ih hmax' hseen' hflag
      rw [update, clock_add hlt, if_pos rfl] at hstep
      exact hstep
    | remove y =>
      have hstep := ih hmax' hseen' (h.remove hb y)
      rw [update, clock_remove] at hstep
      exact hstep

/-! ## Consistent replicas -/

/-- `b` is causally consistent with the operations that take `a` on: of all that `r` does from `a` on,
it has seen what some state of `r` has seen, with its counter. -/
structure Consistent (r : R) (a b : ORSet T R) (ops : List (SetUpdate T)) : Prop where
  left : a.Valid
  right : b.Valid
  seen : ∃ all known, Unsaturated r a all ∧ ops <+: all ∧ known <+: all ∧
    MergeBelow (known.foldl (ORSet.update r) a) b ∧ b.clock r = (known.foldl (ORSet.update r) a).clock r

lemma core_merge_of_below (h : MergeBelow c b) :
    c.toORSetCore.merge b.toORSetCore = b.toORSetCore :=
  congrArg toORSetCore h

lemma merge_eq_of_below (hb : b.Valid) (hc : c.Valid) (h : MergeBelow c b) :
    (b.merge c).toORSetCore = b.toORSetCore :=
  (merge_comm hb.wellFormed hc.wellFormed hb.covered hc.covered).trans (core_merge_of_below h)

lemma clock_le_of_below (h : MergeBelow c b) (q : R) : c.clock q ≤ b.clock q := by
  have hvv := versionAt_merge c.toORSetCore b.toORSetCore q
  rw [core_merge_of_below h] at hvv
  exact le_of_le_of_eq (le_max_left _ _) hvv.symm

lemma below_of_earlier (ha : a.Valid) {before after : List (SetUpdate T)} (hp : before <+: after)
    (hmax : Unsaturated r a after) :
    MergeBelow (before.foldl (ORSet.update r) a) (after.foldl (ORSet.update r) a) := by
  obtain ⟨rest, rfl⟩ := hp
  rw [foldl_append]
  refine below_updates (ha.updates r before) fun mid y hm => ?_
  rw [← foldl_append]
  refine hmax (before ++ mid) y ?_
  rw [append_assoc]
  exact (prefix_append_right_inj _).mpr hm

lemma Consistent.sees (h : Consistent r a b ops) :
    MergeBelow a b ∧ Unsaturated r a ops ∧ Sees b r a ops := by
  obtain ⟨ha, hb, all, known, hall, hops, hknown, hbelow, hcounter⟩ := h
  have hupto : ∀ before, before <+: known → MergeBelow (before.foldl (ORSet.update r) a) b :=
    fun before hp => mergeLaws.below_trans (ha.updates r before) (ha.updates r known) hb
      (below_of_earlier ha hp fun _ _ hm => hall _ _ (hm.trans hknown)) hbelow
  refine ⟨hupto [] nil_prefix, fun _ _ hm => hall _ _ (hm.trans hops), fun before y hp hle => ?_⟩
  have hmid := ha.updates r before
  -- an add that `b` has seen is among the operations it knows
  have hin : before ++ [SetUpdate.add y] <+: known := by
    rcases prefix_or_prefix_of_prefix (hp.trans hops) hknown with h | h
    · exact h
    · rcases prefix_concat_iff.mp h with rfl | h
      · exact prefix_rfl
      · have := clock_le_of_below (below_of_earlier ha h fun _ _ hm => hall _ _
          (hm.trans ((prefix_append _ _).trans (hp.trans hops)))) r
        omega
  have hlast := hupto _ hin
  rw [foldl_append] at hlast
  exact merge_eq_of_below hb (hmid.update r (.add y)) hlast

lemma Consistent.follows (h : Consistent r a b ops) (hd : a.delta = none)
    (x : T) : Follows b r x (ops.foldl (update r) a) (Stale b r (a.clock r) ops x) := by
  obtain ⟨hbelow, hmax, hsees⟩ := h.sees
  have hstart : replayed b a = b.toORSetCore := by rw [replayed, hd]; rfl
  refine follows_updates h.right hmax hsees ⟨⟨h.left, ?_, ?_, ?_⟩, ?_, ?_, ?_, nofun⟩ <;>
    rw [hstart]
  · exact h.right.covered
  · exact h.right.wellFormed
  · exact (max_eq_left (clock_le_of_below hbelow r)).symm
  all_goals rw [merge_eq_of_below h.right h.left hbelow]
  · exact fun _ _ hd => hd
  · exact fun _ _ hd => .inl hd
  · exact fun q n hd => .inr ⟨q, n, hd⟩

/-- **The delta gives the elements of the full state exactly if no element is brought back**: no
element that `b` does not hold is added, after its last remove, an odd number of times with dots that
`b` has all seen. -/
theorem delta_eq_state_iff {ops : List (SetUpdate T)} (h : Consistent r a b ops) (hd : a.delta = none) :
    ((ops.foldl (ORSet.update r) a).delta.elim b b.mergeDelta).elements.keys =
      (b.merge (ops.foldl (ORSet.update r) a)).elements.keys ↔
    ∀ x, Stale b r (a.clock r) ops x = false := by
  have hfollows := h.follows hd
  have ha2 := h.left.updates r ops
  generalize ops.foldl (ORSet.update r) a = a2 at hfollows ha2
  have hcore : (a2.delta.elim b b.mergeDelta).toORSetCore = replayed b a2 := by
    rw [replayed]
    cases a2.delta with
    | none => rfl
    | some d => exact mergeDelta_eq_foldl b d
  have hmem : ∀ x, (x ∈ (replayed b a2).elements.keys ↔ ∃ q n, (replayed b a2).HasDot x q n) ∧
      (x ∈ (b.merge a2).elements.keys ↔ ∃ q n, (b.merge a2).HasDot x q n) := fun x => by
    rw [← contains_iff_hasDot (hfollows x).wellFormed.inhabited,
      ← contains_iff_hasDot (h.right.merge ha2).wellFormed.inhabited]
    exact ⟨Finmap.mem_keys.trans mem_iff_isSome, Finmap.mem_keys.trans mem_iff_isSome⟩
  rw [hcore]
  constructor
  · intro heq x
    refine Bool.eq_false_iff.mpr fun hs => ?_
    obtain ⟨hsome, hnone, -⟩ := (hfollows x).revived hs
    obtain ⟨q, n, hdot⟩ := (hmem x).2.mp (heq ▸ (hmem x).1.mpr hsome)
    exact hnone q n hdot
  · intro hs
    refine Finset.ext fun x => (hmem x).1.trans (Iff.trans ?_ (hmem x).2.symm)
    constructor
    · rintro ⟨q, n, hdot⟩
      exact ((hfollows x).present q n hdot).resolve_left (by rw [hs x]; decide)
    · exact fun ⟨q, n, hdot⟩ => ⟨q, n, (hfollows x).kept q n hdot⟩

end ORSet

/-! ## A late delta -/

namespace LateDelta

/-- Replica 0 has added an element. -/
def added : ORSet ℕ ℕ := ORSet.new.update 0 (.add 7)

/-- Replica 1 has got the state and has removed the element. -/
def removed : ORSet ℕ ℕ := (ORSet.new.merge added).update 1 (.remove 7)

lemma unsaturated_of_inits {ops : List (SetUpdate ℕ)}
    (h : ∀ before ∈ ops.inits, (before.foldl (ORSet.update (0 : ℕ)) .new).clock 0 < u64Max) :
    ORSet.Unsaturated 0 (.new : ORSet ℕ ℕ) ops :=
  fun before _ hp => h before ((mem_inits _ _).mpr ((prefix_append _ _).trans hp))

/-- The element comes back with the delta of the add, and stays away with the state. -/
theorem late_delta_revives : ORSet.Consistent 0 .new removed [.add 7] ∧
    (added.delta.elim removed removed.mergeDelta).elements.keys = {7} ∧
    (removed.merge added).elements.keys = ∅ := by
  refine ⟨⟨valid_new, (valid_new.merge (valid_new.update 0 (.add 7))).update 1
    (.remove 7),
    [.add 7], [.add 7], unsaturated_of_inits (by decide +kernel), prefix_rfl, prefix_rfl, ?_, ?_⟩, ?_,
    ?_⟩
  all_goals decide +kernel

/-- Replica 0 removes the element, adds another one and adds the first one again. -/
def updates : List (SetUpdate ℕ) := [.add 7, .remove 7, .add 8, .add 7]

/-- Replica 1 has the state after the remove, and an element of its own. -/
def receiver : ORSet ℕ ℕ :=
  (ORSet.new.merge ((updates.take 2).foldl (ORSet.update 0) .new)).update 1 (.add 9)

theorem delta_eq_state_seen_half : ORSet.Consistent 0 .new receiver updates ∧
    ((updates.foldl (ORSet.update 0) .new).delta.elim receiver receiver.mergeDelta).elements.keys =
      (receiver.merge (updates.foldl (ORSet.update 0) .new)).elements.keys := by
  have h : ORSet.Consistent 0 .new receiver updates := by
    refine ⟨valid_new, (valid_new.merge (valid_new.updates 0 _)).update 1 (.add 9), updates,
      updates.take 2, unsaturated_of_inits (by decide +kernel), prefix_rfl, take_prefix _ _, ?_, ?_⟩
    all_goals decide +kernel
  refine ⟨h, (delta_eq_state_iff h rfl).mpr fun x => ?_⟩
  by_cases h7 : 7 = x
  · subst h7
    decide +kernel
  by_cases h8 : 8 = x
  · subst h8
    decide +kernel
  simp [ORSet.Stale, ORSet.staleStep, updates, h7, h8]

end LateDelta

end Kairo.DistributedData
