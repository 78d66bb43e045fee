import Kairo.DistributedData.Counters

/-!
# Replicated counters

Replicas increment their own copies of a counter and exchange copies and deltas.  What was sent
reaches any replica, late, repeatedly, in any order or never.
-/

namespace Kairo.DistributedData

open Kairo.Lib FinMap Function

variable {R : Type*} [DecidableEq R]

/-- The copies, what was sent, and the amounts that each replica has added. -/
structure CounterReplicas (R : Type*) where
  copy : R → GCounter R
  sent : List (GCounter R)
  issued : R → ℕ

namespace CounterReplicas

inductive Action (R : Type*)
  | increment (r : R) (amount : ℕ)
  | send (r : R)
  | sendDelta (r : R)
  | receive (r : R) (index : ℕ)

variable (w : CounterReplicas R)

def init : CounterReplicas R := ⟨fun _ => .new, [], 0⟩

/-- A rejected increment changes nothing.  A delta is sent once; copies and deltas are merged alike. -/
def step : Action R → CounterReplicas R
  | .increment r amount =>
    match (w.copy r).increment r amount with
    | .error _ => w
    | .ok c => { w with
        copy := update w.copy r c
        issued := update w.issued r (w.issued r + amount) }
  | .send r => { w with sent := w.copy r :: w.sent }
  | .sendDelta r => { w with
      copy := update w.copy r (w.copy r).resetDelta
      sent := (DeltaReplicatedData.delta (w.copy r)).toList ++ w.sent }
  | .receive r index =>
    match w.sent[index]? with
    | none => w
    | some c => { w with copy := update w.copy r ((w.copy r).merge c) }

def run (actions : List (Action R)) : CounterReplicas R := actions.foldl step init

end CounterReplicas

/-! ## What a counter may show -/

namespace GCounter

variable {issued issued' : R → ℕ} {c c' other : GCounter R} {r : R} {n : ℕ}

/-- No component, of the counter or of its delta, is above what its replica issued. -/
structure Below (issued : R → ℕ) (c : GCounter R) : Prop where
  state (k : R) : c.state.count k ≤ issued k
  delta : ∀ d ∈ c.delta, ∀ k, count d k ≤ issued k

/-- The copy of `r` has besides all that `r` issued. -/
structure Own (issued : R → ℕ) (r : R) (c : GCounter R) : Prop extends Below issued c where
  own : c.state.count r = issued r

lemma below_of_state {s : FinMap R ℕ} (h : ∀ k, s.count k ≤ issued k) :
    Below issued ⟨s, none⟩ :=
  ⟨h, fun d hd => by cases hd⟩

lemma Below.merge (h : Below issued c) (h' : Below issued other) : Below issued (c.merge other) :=
  below_of_state fun k => by
    rw [count_raise]
    exact max_le (h.state k) (h'.state k)

lemma Below.mono (h : Below issued c) (hle : issued ≤ issued') : Below issued' c :=
  ⟨fun k => (h.state k).trans (hle k), fun d hd k => (h.delta d hd k).trans (hle k)⟩

lemma Own.merge (h : Own issued r c) (h' : Below issued other) : Own issued r (c.merge other) where
  toBelow := h.toBelow.merge h'
  own := by
    have hmax := count_raise c.state other.state r
    rwa [h.own, max_eq_left (h'.state r)] at hmax

lemma Own.increment (h : Own issued r c) (hc : c.increment r n = .ok c') :
    Own (update issued r (issued r + n)) r c' := by
  have hmono := h.mono (le_update_self_iff.mpr (Nat.le_add_right (issued r) n))
  unfold GCounter.increment checkedAdd replicaValue at hc
  split_ifs at hc with h0
  · obtain rfl := Except.ok.inj hc
    exact ⟨hmono, by rw [h0, update_self, h.own, add_zero]⟩
  · obtain rfl := Except.ok.inj hc
    -- the new component goes into the counter and into its delta
    have hinsert : ∀ m : FinMap R ℕ, (∀ k, m.count k ≤ update issued r (issued r + n) k) →
        ∀ k, count (m.insert r (c.state.count r + n)) k ≤ update issued r (issued r + n) k := by
      intro m hm k
      rw [count_insert]
      split_ifs with hk
      · rw [hk, update_self, h.own]
      · exact hm k
    refine ⟨⟨hinsert _ hmono.state, fun d hd => ?_⟩, ?_⟩
    · obtain rfl := Option.some.inj hd
      refine hinsert _ fun k => ?_
      cases hdelta : c.delta with
      | none => exact Nat.zero_le _
      | some d => exact hmono.delta d hdelta k
    · rw [count_insert, if_pos rfl, update_self, h.own]

/-- A join shows at least what each of its counters shows. -/
lemma le_count_foldl (cs : List (GCounter R)) (c : GCounter R) (k : R) :
    ∀ c' ∈ c :: cs, c'.state.count k ≤ (cs.foldl merge c).state.count k := by
  induction cs generalizing c with
  | nil => simp
  | cons b cs ih =>
    have hmax := count_raise c.state b.state k
    obtain ⟨hfold, hrest⟩ := List.forall_mem_cons.mp (ih (c.merge b))
    have hcb : max (c.state.count k) (b.state.count k) ≤ _ := hmax.ge.trans hfold
    exact List.forall_mem_cons.mpr ⟨(le_max_left _ _).trans hcb,
      List.forall_mem_cons.mpr ⟨(le_max_right _ _).trans hcb, hrest⟩⟩

end GCounter

/-! ## Runs -/

namespace CounterReplicas

structure Inv (w : CounterReplicas R) : Prop where
  copies (r : R) : GCounter.Own w.issued r (w.copy r)
  sent : ∀ c ∈ w.sent, GCounter.Below w.issued c

variable {w : CounterReplicas R}

lemma Inv.setCopy (h : w.Inv) {r : R} {c : GCounter R} (hc : GCounter.Own w.issued r c) :
    Inv { w with copy := update w.copy r c } where
  copies := (forall_update_iff _ (GCounter.Own w.issued)).mpr ⟨hc, fun q _ => h.copies q⟩
  sent := h.sent

lemma Inv.step (h : w.Inv) (action : Action R) : (w.step action).Inv := by
  cases action with
  | increment r amount =>
    unfold CounterReplicas.step
    dsimp only
    split
    · exact h
    · rename_i c hc
      have hle : w.issued ≤ update w.issued r (w.issued r + amount) :=
        le_update_self_iff.mpr (Nat.le_add_right _ _)
      refine ⟨(forall_update_iff _ (GCounter.Own _)).mpr ⟨(h.copies r).increment hc, fun q hq => ?_⟩,
        fun c hc => (h.sent c hc).mono hle⟩
      exact ⟨(h.copies q).mono hle, (h.copies q).own.trans (update_of_ne hq _ _).symm⟩
  | send r => exact { h with sent := List.forall_mem_cons.mpr ⟨(h.copies r).toBelow, h.sent⟩ }
  | sendDelta r =>
    have hreset : GCounter.Own w.issued r (w.copy r).resetDelta :=
      ⟨GCounter.below_of_state (h.copies r).state, (h.copies r).own⟩
    refine ⟨(h.setCopy hreset).copies, List.forall_mem_append.mpr ⟨fun c hc => ?_, h.sent⟩⟩
    obtain ⟨d, hd, rfl⟩ := Option.map_eq_some_iff.mp (Option.mem_toList.mp hc)
    exact GCounter.below_of_state ((h.copies r).delta d hd)
  | receive r index =>
    unfold CounterReplicas.step
    dsimp only
    split
    · exact h
    · rename_i c hc
      exact h.setCopy ((h.copies r).merge (h.sent c (List.mem_of_getElem? hc)))

lemma inv_run (actions : List (Action R)) : (run actions).Inv :=
  List.foldlRecOn actions _
    ⟨fun _ => ⟨GCounter.below_of_state fun _ => le_rfl, rfl⟩, by simp [init]⟩
    fun _ h action _ => h.step action

lemma total_join [Fintype R] (actions : List (Action R)) {rs : List R} (hrs : ∀ r, r ∈ rs) :
    ((rs.map (run actions).copy).foldl GCounter.merge .new).state.total =
      ∑ r, (run actions).issued r := by
  have h := inv_run actions
  have hbelow : GCounter.Below (run actions).issued
      ((rs.map (run actions).copy).foldl GCounter.merge .new) := by
    refine List.foldlRecOn _ _ (GCounter.below_of_state fun _ => Nat.zero_le _) fun c hc c' hc' => ?_
    obtain ⟨q, -, rfl⟩ := List.mem_map.mp hc'
    exact hc.merge (h.copies q).toBelow
  rw [total_eq_sum (Finset.subset_univ _)]
  refine Finset.sum_congr rfl fun k _ => le_antisymm (hbelow.state k) ?_
  rw [← (h.copies k).own]
  exact GCounter.le_count_foldl _ _ k _ (List.mem_cons_of_mem _ (List.mem_map_of_mem (hrs k)))

/-- **No increment is lost or counted twice.**  The join of all copies, in any order and with any
repetitions, has as value the checked sum of what the replicas have added. -/
theorem value_join {R : Type*} [LinearOrder R] [Fintype R] (actions : List (Action R)) (rs : List R)
    (hrs : ∀ r, r ∈ rs) :
    ((rs.map (run actions).copy).foldl GCounter.merge .new).value =
      checkedAdd 0 (∑ r, (run actions).issued r) := by
  rw [GCounter.value_eq, total_join actions hrs]

/-- A delta that arrives at the other replica. -/
theorem value_join_delta :
    let w := run [.increment (0 : Fin 2) 3, .sendDelta 0, .receive 1 0]
    (([1, 0, 1].map w.copy).foldl GCounter.merge .new).value = checkedAdd 0 (∑ r, w.issued r) :=
  value_join _ [1, 0, 1] (by decide)

end CounterReplicas

end Kairo.DistributedData
