import Kairo.DistributedData.ORSetLaws

/-!
# Sets that are sound for a history

A set is `Sound` for the history and the removes that have reached it when its dots are add dots of
the history, none is older than an add of the same replica and element that the context covers, the
context covers the adds the removes observed, and an element all of whose adds one of the removes
observed is absent.  Local operations, replayed operations and full-state merges keep sets sound;
replayed ones under the conditions of `CarefulOp`.
-/

set_option linter.unusedSectionVars false

namespace Kairo.DistributedData

open Kairo.Lib ORSetCore VersionVector Function SetOp

variable {T R : Type*} [DecidableEq T] [DecidableEq R] {k : ℕ}

/-! ## Sound sets -/

/-- The remove has observed every add of its element. -/
def ObservesAll (H : History T R) (op : ORSetRemoveDelta T R) : Prop :=
  ∀ r n, Added H op.element r n → n ≤ op.seen.versionAt r

structure Sound (H : History T R) (P : ORSetRemoveDelta T R → Prop) (s : ORSetCore T R) : Prop where
  inhabited : s.Inhabited
  positive : s.versionVector.Positive
  born : ∀ x r n, s.HasDot x r n → Added H x r n ∧ n ≤ s.versionVector.versionAt r
  bounded : ∀ r, s.versionVector.versionAt r ≤ addCount (H r)
  latest : ∀ x r m n, s.HasDot x r m → Added H x r n → m < n → s.versionVector.versionAt r < n
  covered : ∀ op, P op → ∀ r n, Added H op.element r n → n ≤ op.seen.versionAt r →
    n ≤ s.versionVector.versionAt r
  absent : ∀ op, P op → ObservesAll H op → ∀ r n, ¬ s.HasDot op.element r n

namespace Sound

variable {H : History T R} {P Q : ORSetRemoveDelta T R → Prop} {s t : ORSetCore T R}
  {op : ORSetRemoveDelta T R} {x : T} {r : R}

lemma dotsCovered (h : Sound H P s) : s.Covered := fun x r n hd => (h.born x r n hd).2

lemma dotsPositive (h : Sound H P s) (hH : HistoryInv H) (x : T) (r : R) : ¬ s.HasDot x r 0 :=
  fun hd => absurd (hH.added_bounds (h.born x r 0 hd).1).1 (Nat.lt_irrefl 0)

lemma not_contains (h : Sound H P s) (hx : ∀ r n, ¬ s.HasDot x r n) : s.contains x = false := by
  rw [← Bool.not_eq_true]
  intro hc
  obtain ⟨r, n, hn⟩ := h.inhabited x hc
  exact hx r n hn

lemma new : Sound H (fun _ => False) (ORSetCore.new : ORSetCore T R) := by
  have hno : ∀ x r n, ¬ (ORSetCore.new : ORSetCore T R).HasDot x r n := by
    rintro x r n ⟨dots, hd, -⟩
    rw [ORSetCore.new, Finmap.lookup_empty] at hd
    cases hd
  refine ⟨fun x hx => ?_, positive_new, fun x r n h => absurd h (hno x r n),
    fun r => Nat.zero_le _, fun x r m n h => absurd h (hno x r m), fun op h => h.elim,
    fun op h => h.elim⟩
  rw [ORSetCore.contains, ORSetCore.new, Finmap.lookup_empty] at hx
  cases hx

/-- **Full-state merges keep sets sound.** -/
theorem merge (hH : HistoryInv H) (hs : Sound H P s) (ht : Sound H Q t) :
    Sound H (fun op => P op ∨ Q op) (s.merge t) := by
  have hv : ∀ r, (s.merge t).versionVector.versionAt r =
      max (s.versionVector.versionAt r) (t.versionVector.versionAt r) :=
    VersionVector.versionAt_merge _ _
  have hdot : ∀ {x r n}, (s.merge t).HasDot x r n →
      s.HasDot x r n ∧ (t.HasDot x r n ∨ t.versionVector.versionAt r < n) ∨
        t.HasDot x r n ∧ s.versionVector.versionAt r < n := by
    intro x r n h
    have := (hasDot_merge_iff hs.dotsCovered ht.dotsCovered (hs.dotsPositive hH)).mp h
    tauto
  refine ⟨inhabited_merge s t, ht.positive.merge _, fun x r n h => ?_, fun r => ?_,
    fun x r m n h ha hlt => ?_, fun op hop r n ha hn => ?_, fun op hop hall r n h => ?_⟩
  · rw [hv]
    rcases hdot h with ⟨h, -⟩ | ⟨h, -⟩
    · exact ⟨(hs.born x r n h).1, (hs.born x r n h).2.trans (le_max_left _ _)⟩
    · exact ⟨(ht.born x r n h).1, (ht.born x r n h).2.trans (le_max_right _ _)⟩
  · rw [hv]
    exact max_le (hs.bounded r) (ht.bounded r)
  · rw [hv, max_lt_iff]
    rcases hdot h with ⟨h, h' | h'⟩ | ⟨h, h'⟩
    · exact ⟨hs.latest x r m n h ha hlt, ht.latest x r m n h' ha hlt⟩
    · exact ⟨hs.latest x r m n h ha hlt, h'.trans hlt⟩
    · exact ⟨h'.trans hlt, ht.latest x r m n h ha hlt⟩
  · rw [hv]
    rcases hop with hop | hop
    · exact (hs.covered op hop r n ha hn).trans (le_max_left _ _)
    · exact (ht.covered op hop r n ha hn).trans (le_max_right _ _)
  · -- the side that knows the remove has no dot left and covers those of the other side
    rcases hop with hop | hop
    · rcases hdot h with ⟨h, -⟩ | ⟨h, hlt⟩
      · exact hs.absent op hop hall r n h
      · have ha := (ht.born _ r n h).1
        have := hs.covered op hop r n ha (hall r n ha)
        omega
    · rcases hdot h with ⟨h, h' | hlt⟩ | ⟨h, -⟩
      · exact ht.absent op hop hall r n h'
      · have ha := (hs.born _ r n h).1
        have := ht.covered op hop r n ha (hall r n ha)
        omega
      · exact ht.absent op hop hall r n h

lemma new_merge (hH : HistoryInv H) (ht : Sound H Q t) : ORSetCore.new.merge t = t := by
  have hnew : Sound H (fun _ => False) ORSetCore.new := new
  refine ext_of_hasDot (inhabited_merge _ t) ht.inhabited (ht.positive.merge _)
    ht.positive (fun x r n => ?_) fun r => ?_
  · have hno : ¬ ORSetCore.new.HasDot x r n := fun ⟨_, hd, _⟩ => by cases hd
    rw [hasDot_merge_iff hnew.dotsCovered ht.dotsCovered (hnew.dotsPositive hH)]
    simp only [hno, false_and, false_or]
    exact and_iff_left_of_imp fun h => (hH.added_bounds (ht.born x r n h).1).1
  · exact (versionAt_merge _ t r).trans (Nat.zero_max _)

lemma weaken (hs : Sound H P s) (h : ∀ op, Q op → P op) : Sound H Q s :=
  { hs with
    covered := fun op hop => hs.covered op (h op hop)
    absent := fun op hop => hs.absent op (h op hop) }

end Sound

/-! ## Replayed operations -/

/-- The numbers of the dots with which `r` has added `x`. -/
def addDots (x : T) (r : R) (ops : List (SetOp T R)) : List ℕ :=
  ops.filterMap fun
    | .add set => if set.contains x then some (set.versionVector.versionAt r) else none
    | .remove _ => none

lemma contains_single {x y : T} {n : ℕ} : (single y r n).contains x = true ↔ x = y := by
  rw [contains, single, FinMap.lookup_singleton]
  by_cases h : x = y
  · rw [if_pos h]; simp [h]
  · rw [if_neg h]; simp [h]

lemma mem_addDots {H : History T R} (hH : HistoryInv H) {n : ℕ} :
    n ∈ addDots x r (H r) ↔ Added H x r n := by
  rw [addDots, List.mem_filterMap]
  constructor
  · rintro ⟨op, hop, he⟩
    cases op with
    | remove op => cases he
    | add set =>
      obtain ⟨y, m, rfl, -⟩ := (hH.numbered r).bounds hop
      dsimp only at he
      split_ifs at he with hx
      obtain rfl := contains_single.mp hx
      have hm : (single x r m).versionVector.versionAt r = m := by
        rw [single, versionAt_one, if_pos rfl]
      rw [hm] at he
      cases he
      exact hop
  · intro h
    refine ⟨_, h, ?_⟩
    dsimp only
    rw [if_pos (contains_single.mpr rfl), single, versionAt_one, if_pos rfl]

/-- The conditions under which replaying an operation is safe; `rs` are the replicas that have
operations.  An add of an absent element is not covered by the context; a remove comes after the adds
of its element that it has observed. -/
def CarefulOp (rs : Finset R) (H : History T R) (s : ORSetCore T R) : SetOp T R → Prop
  | .add set => ∀ x ∈ set.elements.keys, s.contains x = false →
      s.versionVector.dominates set.versionVector = false
  | .remove op => ∀ r ∈ rs, ∀ n ∈ addDots op.element r (H r), n ≤ op.seen.versionAt r →
      n ≤ s.versionVector.versionAt r

instance (rs : Finset R) (H : History T R) (s : ORSetCore T R) :
    (op : SetOp T R) → Decidable (CarefulOp rs H s op)
  | .add set => inferInstanceAs (Decidable (∀ x ∈ set.elements.keys, s.contains x = false →
      s.versionVector.dominates set.versionVector = false))
  | .remove op => inferInstanceAs (Decidable (∀ r ∈ rs, ∀ n ∈ addDots op.element r (H r),
      n ≤ op.seen.versionAt r → n ≤ s.versionVector.versionAt r))

/-- The conditions hold for each operation in turn. -/
def CarefulOps (rs : Finset R) (H : History T R) : ORSetCore T R → List (SetOp T R) → Prop
  | _, [] => True
  | s, op :: ops => CarefulOp rs H s op ∧ CarefulOps rs H (s.replay op) ops

instance (rs : Finset R) (H : History T R) :
    (s : ORSetCore T R) → (ops : List (SetOp T R)) → Decidable (CarefulOps rs H s ops)
  | _, [] => isTrue trivial
  | s, op :: ops =>
    haveI := instDecidableCarefulOps rs H (s.replay op) ops
    inferInstanceAs (Decidable (CarefulOp rs H s op ∧ CarefulOps rs H (s.replay op) ops))

lemma versionAt_merge_one {v : VersionVector R} {q r : R} (h : k ≤ v.versionAt q) :
    (v.merge (.one q k)).versionAt r = v.versionAt r := by
  rw [VersionVector.versionAt_merge, VersionVector.versionAt_one]
  split_ifs with hr
  · exact max_eq_left (hr ▸ h)
  · exact Nat.max_zero _

lemma versionAt_mergeRemoveDelta {s : ORSetCore T R} {q r : R} (hdot : op.removeDot = .one q k)
    (h : k ≤ s.versionVector.versionAt q) :
    (s.mergeRemoveDelta op).versionVector.versionAt r = s.versionVector.versionAt r := by
  have hmerge : (s.versionVector.merge op.removeDot).versionAt r = s.versionVector.versionAt r := by
    rw [hdot]
    exact versionAt_merge_one h
  exact hmerge

namespace Sound

variable {H : History T R} {P : ORSetRemoveDelta T R → Prop} {s : ORSetCore T R} {q : R}

lemma replay_add (hH : HistoryInv H) (hs : Sound H P s) (hadd : Added H x q k)
    (hprev : k ≤ s.versionVector.versionAt q + 1)
    (hc : s.contains x = false → s.versionVector.versionAt q < k) :
    Sound H P (s.mergeAddDelta (single x q k)) := by
  have hk := hH.added_bounds hadd
  have hv : ∀ r, (s.mergeAddDelta (single x q k)).versionVector.versionAt r =
      max (s.versionVector.versionAt r) (if r = q then k else 0) := by
    intro r
    rw [← versionAt_one]
    exact VersionVector.versionAt_merge _ _ _
  -- a new dot is one the context did not cover
  have hdot : ∀ {y r n}, (s.mergeAddDelta (single x q k)).HasDot y r n →
      s.HasDot y r n ∧ (y = x → r = q → k ≤ n) ∨
        (y = x ∧ r = q ∧ n = k) ∧ s.versionVector.versionAt q < k := by
    intro y r n h
    rw [hasDot_mergeAddDelta_iff hs.dotsCovered (hs.dotsPositive hH) hk.1.ne'] at h
    by_cases hy : y = x
    · subst hy
      rw [if_pos rfl] at h
      exact h.imp (fun h => ⟨h.1, fun _ => h.2⟩)
        fun h => ⟨⟨rfl, h.1⟩, (Bool.eq_false_or_eq_true _).elim h.2 hc⟩
    · rw [if_neg hy] at h
      exact .inl ⟨h, fun e => absurd e hy⟩
  refine ⟨inhabited_mergeAddDelta hs.inhabited, (positive_one q k).merge _,
    fun y r n h => ?_, fun r => ?_, fun y r m n h ha hlt => ?_, fun op hop r n ha hn => ?_, fun op
    hop hall r n h => ?_⟩
  · rw [hv]
    rcases hdot h with ⟨h, -⟩ | ⟨⟨rfl, rfl, rfl⟩, -⟩
    · exact ⟨(hs.born y r n h).1, (hs.born y r n h).2.trans (le_max_left _ _)⟩
    · exact ⟨hadd, by rw [if_pos rfl]; exact le_max_right _ _⟩
  · rw [hv]
    have := hs.bounded r
    split_ifs with hr
    · subst hr
      omega
    · omega
  · rw [hv]
    rcases hdot h with ⟨h, hge⟩ | ⟨⟨rfl, rfl, rfl⟩, hlt'⟩
    · have hlat := hs.latest y r m n h ha hlt
      split_ifs with hr
      · subst hr
        -- the next dot of the replica is `k`, and if that is the later add, the dot is not older
        rcases Nat.lt_or_ge k n with hkn | hkn
        · omega
        · obtain rfl : n = k := by omega
          have := hge (hH.added_unique ha hadd) rfl
          omega
      · omega
    · rw [if_pos rfl]
      omega
  · rw [hv]
    exact (hs.covered op hop r n ha hn).trans (le_max_left _ _)
  · rcases hdot h with ⟨h, -⟩ | ⟨⟨rfl, rfl, rfl⟩, hlt⟩
    · exact hs.absent op hop hall r n h
    · have := hs.covered op hop r n hadd (hall r n hadd)
      omega

lemma replay_remove (hs : Sound H P s) (hdot : op.removeDot = .one q k)
    (hprev : k ≤ s.versionVector.versionAt q)
    (hc : ∀ r n, Added H op.element r n → n ≤ op.seen.versionAt r → n ≤ s.versionVector.versionAt r) :
    Sound H (fun o => P o ∨ o = op) (s.mergeRemoveDelta op) := by
  have hv : ∀ r, (s.mergeRemoveDelta op).versionVector.versionAt r = s.versionVector.versionAt r :=
    fun r => versionAt_mergeRemoveDelta hdot hprev
  refine ⟨inhabited_mergeRemoveDelta hs.inhabited,
    VersionVector.Positive.merge _ (hdot ▸ positive_one q k), fun x r n h => ?_,
    fun r => ?_, fun x r m n h => ?_, fun o ho r n ha hn => ?_, fun o ho hall r n h => ?_⟩
  · rw [hv]
    exact hs.born x r n (hasDot_mergeRemoveDelta.mp h).1
  · rw [hv]
    exact hs.bounded r
  · rw [hv]
    exact hs.latest x r m n (hasDot_mergeRemoveDelta.mp h).1
  · rw [hv]
    rcases ho with ho | rfl
    · exact hs.covered o ho r n ha hn
    · exact hc r n ha hn
  · obtain ⟨h, hkept⟩ := hasDot_mergeRemoveDelta.mp h
    rcases ho with ho | rfl
    · exact hs.absent o ho hall r n h
    · obtain ⟨r', n', h', hlt⟩ := hkept rfl
      have := hall r' n' (hs.born _ r' n' h').1
      omega

/-- **Replayed operations keep sets sound.**  `ops` are operations of `q` after `k` adds, which the
context covers. -/
theorem replay {rs : Finset R} (hH : HistoryInv H) (hrs : ∀ r, r ∉ rs → H r = []) {q : R}
    {ops : List (SetOp T R)} (hs : Sound H P s) (hnum : Numbered q k ops)
    (hmem : ∀ op ∈ ops, op ∈ H q) (hprev : k ≤ s.versionVector.versionAt q)
    (hc : CarefulOps rs H s ops) :
    Sound H (fun o => P o ∨ remove o ∈ ops) (ops.foldl replay s) ∧
      k + addCount ops ≤ (ops.foldl replay s).versionVector.versionAt q := by
  induction ops generalizing s k P with
  | nil => exact ⟨hs.weaken fun o ho => ho.resolve_right (by simp), by simpa [addCount] using hprev⟩
  | cons op ops ih =>
    have htail : ∀ o ∈ ops, o ∈ H q := fun o ho => hmem o (List.mem_cons_of_mem _ ho)
    cases op with
    | add set =>
      obtain ⟨⟨x, rfl⟩, hnum⟩ := hnum
      have hnew : s.contains x = false → s.versionVector.versionAt q < k + 1 := by
        intro hx
        have hd := hc.1 x (by simp [single]) hx
        by_contra hle
        rw [← Bool.not_eq_true, dominates_iff] at hd
        refine hd fun r n hn => ?_
        obtain ⟨-, rfl, rfl⟩ := has_one.mp hn
        omega
      have hstep := hs.replay_add hH (hmem _ List.mem_cons_self) (by omega) hnew
      have hv : k + 1 ≤ (s.mergeAddDelta (single x q (k + 1))).versionVector.versionAt q := by
        have hm : (s.mergeAddDelta (single x q (k + 1))).versionVector.versionAt q =
            max (s.versionVector.versionAt q) ((one q (k + 1)).versionAt q) :=
          VersionVector.versionAt_merge _ _ _
        rw [hm, versionAt_one, if_pos rfl]
        exact le_max_right _ _
      obtain ⟨h1, h2⟩ := ih hstep hnum htail hv hc.2
      refine ⟨h1.weaken fun o ho => ho.imp_right fun ho => ?_, ?_⟩
      · exact (List.mem_cons.mp ho).resolve_left (by simp)
      · rw [addCount]
        rw [List.foldl_cons]
        have : (s.replay (.add (single x q (k + 1)))) = s.mergeAddDelta (single x q (k + 1)) := rfl
        rw [this]
        omega
    | remove op =>
      obtain ⟨hdot, hnum⟩ := hnum
      have hstep := hs.replay_remove hdot hprev fun r n ha hn => by
        by_cases hr : r ∈ rs
        · exact hc.1 r hr n ((mem_addDots hH).mpr ha) hn
        · rw [Added, hrs r hr] at ha
          cases ha
      have hv : k ≤ (s.mergeRemoveDelta op).versionVector.versionAt q := by
        rwa [versionAt_mergeRemoveDelta hdot hprev]
      obtain ⟨h1, h2⟩ := ih hstep hnum htail hv hc.2
      refine ⟨h1.weaken fun o ho => ?_, h2⟩
      rcases ho with ho | ho
      · exact .inl (.inl ho)
      · rcases List.mem_cons.mp ho with ho | ho
        · injection ho with ho
          exact .inl (.inr ho)
        · exact .inr ho

end Sound

/-! ## Operations that change nothing -/

/-- The context covers the operation, an added element is present, and a removed one is absent or has a
dot that the remove has not seen. -/
def Settled (s : ORSetCore T R) : SetOp T R → Prop
  | .add set => s.versionVector.dominates set.versionVector = true ∧
      ∀ x ∈ set.elements.keys, s.contains x = true
  | .remove op => s.versionVector.dominates op.removeDot = true ∧
      ∀ dots ∈ s.elements.lookup op.element, op.seen.dominates dots = false

instance (s : ORSetCore T R) : (op : SetOp T R) → Decidable (Settled s op)
  | .add set => inferInstanceAs (Decidable (s.versionVector.dominates set.versionVector = true ∧
      ∀ x ∈ set.elements.keys, s.contains x = true))
  | .remove op => inferInstanceAs (Decidable (s.versionVector.dominates op.removeDot = true ∧
      ∀ dots ∈ s.elements.lookup op.element, op.seen.dominates dots = false))

lemma le_of_dominates_one {v : VersionVector R} (h : v.dominates (.one q k) = true) :
    k ≤ v.versionAt q := by
  rcases Nat.eq_zero_or_pos k with rfl | hk
  · exact Nat.zero_le _
  · exact dominates_iff.mp h q k (has_one.mpr ⟨hk.ne', rfl, rfl⟩)

namespace Sound

variable {H : History T R} {P : ORSetRemoveDelta T R → Prop} {s : ORSetCore T R}

lemma replay_settled (hH : HistoryInv H) (hs : Sound H P s) {ops : List (SetOp T R)}
    (hnum : Numbered q k ops) (hmem : ∀ op ∈ ops, op ∈ H q) (hset : ∀ op ∈ ops, Settled s op) :
    ops.foldl ORSetCore.replay s = s := by
  induction ops generalizing k with
  | nil => rfl
  | cons op ops ih =>
    have hop := hset _ List.mem_cons_self
    have hstep : s.replay op = s := by
      cases op with
      | add set =>
        obtain ⟨⟨x, rfl⟩, -⟩ := hnum
        have hle := le_of_dominates_one hop.1
        have hx : s.contains x = true := hop.2 x (by simp [single])
        refine ext_of_hasDot (inhabited_mergeAddDelta hs.inhabited) hs.inhabited
          ((positive_one q _).merge _) hs.positive (fun y r n => ?_)
          fun r => versionAt_merge_one hle
        refine (hasDot_mergeAddDelta_iff hs.dotsCovered (hs.dotsPositive hH)
          (Nat.succ_ne_zero k)).trans ?_
        split_ifs with hy
        · subst hy
          constructor
          · rintro (h | ⟨-, hlt⟩)
            · exact h.1
            · exact absurd (hlt hx) (not_lt_of_ge hle)
          · -- an older dot would mean that the context lacks the add
            refine fun h => .inl ⟨h, fun hr => ?_⟩
            subst hr
            by_contra hlt
            have := hs.latest y r n (k + 1) h (hmem _ List.mem_cons_self) (by omega)
            omega
        · rfl
      | remove op =>
        obtain ⟨hdot, -⟩ := hnum
        obtain ⟨hdom, hunseen⟩ := hop
        rw [hdot] at hdom
        have hkept : (s.mergeRemoveDelta op).elements = s.elements := by
          refine if_neg fun hany => ?_
          obtain ⟨dots, hd, hseen⟩ := (Option.any_eq_true ..).mp hany
          exact Bool.false_ne_true ((hunseen dots hd).symm.trans hseen)
        refine ext_of_hasDot (inhabited_mergeRemoveDelta hs.inhabited) hs.inhabited
          (VersionVector.Positive.merge _ (hdot ▸ positive_one q k)) hs.positive
          (fun y r n => ?_) fun r => versionAt_mergeRemoveDelta hdot (le_of_dominates_one hdom)
        rw [HasDot, HasDot, ORSetCore.replay, hkept]
    rw [List.foldl_cons, hstep]
    cases op with
    | add set | remove op =>
      exact ih hnum.2 (fun o ho => hmem o (List.mem_cons_of_mem _ ho))
        (fun o ho => hset o (List.mem_cons_of_mem _ ho))

end Sound

/-! ## Local operations -/

def History.extend (H : History T R) (q : R) (new : List (SetOp T R)) : History T R :=
  Function.update H q (H q ++ new)

section Extend

variable {H : History T R} {q : R} {new : List (SetOp T R)}

lemma mem_extend {op : SetOp T R} : op ∈ H.extend q new r ↔ op ∈ H r ∨ r = q ∧ op ∈ new := by
  by_cases hr : r = q
  · subst hr
    simp [History.extend]
  · simp [History.extend, hr]

lemma addCount_extend (r : R) :
    addCount (H.extend q new r) = addCount (H r) + if r = q then addCount new else 0 := by
  by_cases hr : r = q
  · subst hr
    rw [History.extend, update_self, addCount_append, if_pos rfl]
  · rw [History.extend, update_of_ne hr, if_neg hr, Nat.add_zero]

lemma HistoryInv.extend (hH : HistoryInv H) (hnum : Numbered q (addCount (H q)) new)
    (hseen : ∀ op, remove op ∈ new → ∀ r, op.seen.versionAt r ≤ addCount (H r)) :
    HistoryInv (H.extend q new) := by
  constructor
  · intro r
    by_cases hr : r = q
    · subst hr
      rw [History.extend, update_self, numbered_append, Nat.zero_add]
      exact ⟨hH.numbered r, hnum⟩
    · rw [History.extend, update_of_ne hr]
      exact hH.numbered r
  · intro r op hop r'
    have hle : op.seen.versionAt r' ≤ addCount (H r') := by
      rcases mem_extend.mp hop with hop | ⟨-, hop⟩
      · exact hH.seen r op hop r'
      · exact hseen op hop r'
    rw [addCount_extend]
    omega

namespace Sound

variable {P : ORSetRemoveDelta T R → Prop} {s : ORSetCore T R}

/-- Operations of another replica, with dots nobody has seen, keep sets sound. -/
lemma extend (hH : HistoryInv H) (hnum : Numbered q (addCount (H q)) new)
    (hP : ∀ op, P op → ∃ r, remove op ∈ H r) (hs : Sound H P s) :
    Sound (H.extend q new) P s := by
  have hmono : ∀ {x r n}, Added H x r n → Added (H.extend q new) x r n := fun h =>
    mem_extend.mpr (.inl h)
  have hnew : ∀ {x r n}, Added (H.extend q new) x r n → Added H x r n ∨ addCount (H r) < n := by
    intro x r n h
    rcases mem_extend.mp h with h' | ⟨rfl, h'⟩
    · exact .inl h'
    · exact .inr (hnum.dot_bounds h').1
  refine ⟨hs.inhabited, hs.positive, fun x r n h => ?_, fun r => ?_, fun x r m n h ha hlt => ?_,
    fun op hop r n ha hn => ?_, fun op hop hall => ?_⟩
  · exact ⟨hmono (hs.born x r n h).1, (hs.born x r n h).2⟩
  · have := hs.bounded r
    rw [addCount_extend]
    omega
  · rcases hnew ha with ha | ha
    · exact hs.latest x r m n h ha hlt
    · exact (hs.bounded r).trans_lt ha
  · rcases hnew ha with ha | ha
    · exact hs.covered op hop r n ha hn
    · obtain ⟨r', hr'⟩ := hP op hop
      have := hH.seen r' op hr' r
      omega
  · exact hs.absent op hop fun r n ha => hall r n (hmono ha)

/-- **A local add keeps the set sound.** -/
theorem add (hH : HistoryInv H) (hP : ∀ op, P op → ∃ r, remove op ∈ H r) (hs : Sound H P s)
    (hq : s.versionVector.versionAt q = addCount (H q))
    (hmax : s.versionVector.versionAt q < Cluster.u64Max) (x : T) :
    Sound (H.extend q [.add (single x q (s.versionVector.versionAt q + 1))]) P (s.add q x) := by
  set k := s.versionVector.versionAt q + 1 with hk
  have hnum : Numbered q (addCount (H q)) [.add (single x q k)] := by
    rw [← hq]
    exact ⟨⟨x, rfl⟩, trivial⟩
  have hext := hs.extend hH hnum hP
  have hH' := hH.extend hnum (by simp)
  have hv : ∀ r, (s.add q x).versionVector.versionAt r =
      if r = q then k else s.versionVector.versionAt r := by
    intro r
    rw [ORSetCore.add, versionAt_increment, min_eq_left (by omega)]
  have hadd : Added (H.extend q [.add (single x q k)]) x q k :=
    mem_extend.mpr (.inr ⟨rfl, List.mem_cons_self⟩)
  have hdot : ∀ {y r n}, (s.add q x).HasDot y r n →
      (y ≠ x ∧ s.HasDot y r n) ∨ (y = x ∧ r = q ∧ n = k) := by
    intro y r n h
    rw [hasDot_add hmax] at h
    split_ifs at h with hy
    · exact .inr ⟨hy, h⟩
    · exact .inl ⟨hy, h⟩
  refine ⟨inhabited_add hs.inhabited, hs.positive.increment q, fun y r n h => ?_,
    fun r => ?_, fun y r m n h ha hlt => ?_, fun op hop r n ha hn => ?_,
    fun op hop hall r n h => ?_⟩
  · rw [hv]
    rcases hdot h with ⟨-, h⟩ | ⟨rfl, rfl, rfl⟩
    · have := hext.born y r n h
      refine ⟨this.1, ?_⟩
      split_ifs with hr
      · subst hr
        omega
      · exact this.2
    · rw [if_pos rfl]
      exact ⟨hadd, le_refl _⟩
  · rw [hv]
    have := hs.bounded r
    rw [addCount_extend]
    split_ifs with hr
    · subst hr
      simp only [addCount]
      omega
    · omega
  · rw [hv]
    rcases hdot h with ⟨hy, h⟩ | ⟨rfl, rfl, rfl⟩
    · have hlat := hext.latest y r m n h ha hlt
      split_ifs with hr
      · -- the only later dot of `q` is the one of `x`
        subst hr
        rcases Nat.lt_or_ge k n with hn | hn
        · exact hn
        · obtain rfl : n = k := by omega
          exact absurd (hH'.added_unique ha hadd) hy
      · exact hlat
    · rw [if_pos rfl]
      exact hlt
  · have := hext.covered op hop r n ha hn
    rw [hv]
    split_ifs with hr
    · subst hr
      omega
    · exact this
  · rcases hdot h with ⟨-, h⟩ | ⟨hx, rfl, rfl⟩
    · exact hext.absent op hop hall r n h
    · -- a remove of the past has not observed the new dot
      obtain ⟨r', hr'⟩ := hP op hop
      have h1 := hall r k (hx ▸ hadd)
      have h2 := hH.seen r' op hr' r
      omega

/-- **A local remove keeps the set sound.** -/
theorem remove (hH : HistoryInv H) (hP : ∀ op, P op → ∃ r, remove op ∈ H r) (hs : Sound H P s)
    (op : ORSetRemoveDelta T R) (hseen : op.seen = s.versionVector)
    (hdot : op.removeDot = .one q (addCount (H q))) :
    Sound (H.extend q [.remove op]) (fun o => P o ∨ o = op) (s.remove op.element) := by
  have hnum : Numbered q (addCount (H q)) [SetOp.remove op] := ⟨hdot, trivial⟩
  have hext := hs.extend hH hnum hP
  refine ⟨inhabited_remove hs.inhabited, hs.positive,
    fun y r n h => hext.born y r n (hasDot_remove.mp h).2, hext.bounded,
    fun y r m n h => hext.latest y r m n (hasDot_remove.mp h).2, fun o ho r n ha hn => ?_,
    fun o ho hall r n h => ?_⟩
  · rcases ho with ho | rfl
    · exact hext.covered o ho r n ha hn
    · rw [hseen] at hn
      exact hn
  · obtain ⟨hne, h⟩ := hasDot_remove.mp h
    rcases ho with ho | rfl
    · exact hext.absent o ho hall r n h
    · exact hne rfl

end Sound

end Extend

end Kairo.DistributedData
