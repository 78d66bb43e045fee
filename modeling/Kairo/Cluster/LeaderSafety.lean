import Kairo.Cluster.GossipOrder
import Kairo.Cluster.LeaderActions

/-!
# What leader actions change

One pass of the leader, member by member: who is promoted or advanced, who is removed, which up
numbers are given and what becomes of the clock.
-/

namespace Kairo.Cluster

open Kairo.Lib Gossip List

variable {g : Gossip} {self n : UniqueAddress} {m c : Member} {k next ts : ℕ} {ms : List Member}
  {confirmed : Finset UniqueAddress}

namespace LeaderActions

/-! ## The changed members -/

/-- `c` is `m` after the pass: promoted with the number `k`, or advanced from leaving to exiting. -/
inductive Advanced (m : Member) (k : ℕ) : Member → Prop
  | promoted : m.status = .joining ∨ m.status = .weaklyUp →
    Advanced m k ((m.withStatus .up).withUpNumber k)
  | exiting : m.status = .leaving → Advanced m k (m.withStatus .exiting)

lemma Advanced.uniqueAddress_eq (h : Advanced m k c) : c.uniqueAddress = m.uniqueAddress := by
  cases h <;> rfl

lemma Advanced.status_ne (h : Advanced m k c) : c.status ≠ m.status := by
  cases h with
  | promoted h => rcases h with h | h <;> simp [h]
  | exiting h => simp [h]

lemma changedFrom_cons (next : ℕ) (m : Member) (ms : List Member) :
    (∃ c, Advanced m next c ∧ changedFrom next (m :: ms) =
        c :: changedFrom (if c.status = .up then next + 1 else next) ms) ∨
      (changedFrom next (m :: ms) = changedFrom next ms ∧
        m.status ≠ .joining ∧ m.status ≠ .weaklyUp ∧ m.status ≠ .leaving) := by
  cases hs : m.status with
  | joining => exact .inl ⟨_, .promoted (.inl hs), by simp [changedFrom, hs]⟩
  | weaklyUp => exact .inl ⟨_, .promoted (.inr hs), by simp [changedFrom, hs]⟩
  | leaving => exact .inl ⟨_, .exiting hs, by simp [changedFrom, hs]⟩
  | up | exiting | down | removed => exact .inr (by simp [changedFrom, hs])

lemma exists_advanced (h : c ∈ changedFrom next ms) :
    ∃ m ∈ ms, ∃ k ≥ next, Advanced m k c ∧ k < next + ms.length := by
  induction ms generalizing next with
  | nil => cases h
  | cons a ms ih =>
    rcases changedFrom_cons next a ms with ⟨c', hc, he⟩ | ⟨he, -⟩ <;> rw [he] at h
    · rcases mem_cons.mp h with rfl | h
      · exact ⟨a, by simp, next, le_rfl, hc, by simp⟩
      · obtain ⟨m, hm, k, hk, ha, hlt⟩ := ih h
        rw [length_cons]
        refine ⟨m, mem_cons_of_mem _ hm, k, ?_, ha, ?_⟩ <;> split at hk <;> grind
    · obtain ⟨m, hm, k, hk, ha, hlt⟩ := ih h
      exact ⟨m, mem_cons_of_mem _ hm, k, hk, ha, by rw [length_cons]; omega⟩

lemma exists_changed (next : ℕ) (hm : m ∈ ms)
    (hs : m.status = .joining ∨ m.status = .weaklyUp ∨ m.status = .leaving) :
    ∃ c ∈ changedFrom next ms, c.uniqueAddress = m.uniqueAddress := by
  induction ms generalizing next with
  | nil => cases hm
  | cons a ms ih =>
    rcases changedFrom_cons next a ms with ⟨c, hc, he⟩ | ⟨he, h1, h2, h3⟩ <;> rw [he]
    · rcases mem_cons.mp hm with rfl | hm
      · exact ⟨c, by simp, by cases hc <;> rfl⟩
      · obtain ⟨c', hc', ha⟩ := ih _ hm
        exact ⟨c', mem_cons_of_mem _ hc', ha⟩
    · rcases mem_cons.mp hm with rfl | hm
      · exact absurd hs (by simp [h1, h2, h3])
      · exact ih next hm

lemma pairwise_upNumber : (changedFrom next ms).Pairwise fun c c' =>
    c.status = .up → c'.status = .up → c.upNumber ≠ c'.upNumber := by
  induction ms generalizing next with
  | nil => exact .nil
  | cons a ms ih =>
    rcases changedFrom_cons next a ms with ⟨c, hc, he⟩ | ⟨he, -⟩ <;> rw [he]
    · refine .cons (fun c' hc' hup hup' heq => ?_) ih
      obtain ⟨m, -, k, hk, ha, -⟩ := exists_advanced hc'
      cases hc with
      | exiting => cases hup
      | promoted =>
        cases ha with
        | exiting => cases hup'
        | promoted =>
          cases heq
          simp at hk
    · exact ih

lemma member_changed (hn : g.Normalized) (hm : g.member n = some m) :
    ∃ c, (g.updateMembers (changedMembers g)).member n = some c ∧
      (c = m ∧ m.status ≠ .joining ∧ m.status ≠ .weaklyUp ∧ m.status ≠ .leaving ∨
        c ∈ changedMembers g ∧ ∃ k ≥ nextUpNumber g, Advanced m k c) := by
  obtain ⟨hmem, rfl⟩ := mem_of_member hm
  refine ⟨_, by rw [member_updateMembers hn, hm, Option.map_some], ?_⟩
  unfold replaced
  cases hf : (changedMembers g).reverse.find? (·.uniqueAddress = m.uniqueAddress) with
  | none =>
    have hnone : ¬ (m.status = .joining ∨ m.status = .weaklyUp ∨ m.status = .leaving) := by
      intro hs
      obtain ⟨c, hc, he⟩ := exists_changed (nextUpNumber g) hmem hs
      have := find?_eq_none.mp hf c (mem_reverse.mpr hc)
      simp [he] at this
    simp only [not_or] at hnone
    exact .inl ⟨rfl, hnone⟩
  | some c =>
    have hc : c ∈ changedMembers g := mem_reverse.mp (mem_of_find?_eq_some hf)
    have he : c.uniqueAddress = m.uniqueAddress := by simpa using find?_some hf
    obtain ⟨m', hm', k, hk, ha, -⟩ := exists_advanced hc
    have he' : m'.uniqueAddress = m.uniqueAddress := ha.uniqueAddress_eq.symm.trans he
    obtain rfl := inj_on_of_nodup_map hn hm' hmem he'
    exact .inr ⟨hc, k, hk, ha⟩

lemma lt_nextUpNumber (hm : m ∈ g.members) (hk : m.upNumber = some k) : k < nextUpNumber g := by
  have hmem : k ∈ g.members.filterMap (·.upNumber) := mem_filterMap.mpr ⟨m, hm, hk⟩
  rw [nextUpNumber]
  cases hmax : (g.members.filterMap (·.upNumber)).max? with
  | none => rw [max?_eq_none_iff.mp hmax] at hmem; cases hmem
  | some x => exact Nat.lt_succ_of_le ((max?_eq_some_iff.mp hmax).2 k hmem)

/-! ## Removals -/

/-- A terminal member that is recorded unreachable or has confirmed that it exits. -/
def Removable (g : Gossip) (exitingConfirmed : Finset UniqueAddress) (m : Member) : Prop :=
  (m.status = .down ∨ m.status = .exiting) ∧
    (m.uniqueAddress ∈ g.reachability.allUnreachableOrTerminated ∨
      m.status = .exiting ∧ m.uniqueAddress ∈ exitingConfirmed)

instance (m : Member) : Decidable (Removable g confirmed m) := inferInstanceAs (Decidable (_ ∧ _))

lemma mem_removedMembers (hn : g.Normalized) : n ∈ removedMembers g confirmed ↔
    ∃ m, g.member n = some m ∧ Removable g confirmed m := by
  have hskip (m : Member) : m.status.canSkipUnreachableForConvergence = true ↔
      m.status = .down ∨ m.status = .exiting := by
    cases m.status <;> decide
  simp only [removedMembers, mem_map, mem_filter, decide_eq_true_eq, hskip, Removable,
    member, find?_eq_some_iff hn]
  grind

lemma member_foldl_remove (ts : ℕ) (removed : List UniqueAddress) (g : Gossip) :
    (removed.foldl (fun g n => g.remove n ts) g).member n =
      if n ∈ removed then none else g.member n := by
  induction removed generalizing g with
  | nil => simp
  | cons a removed ih =>
    have hm : (g.remove a ts).member n = if n = a then none else g.member n := by
      simp only [remove, member, find?_filter]
      split_ifs with hn
      · simp [hn]
      · congr 1
        grind
    rw [foldl_cons, ih, hm]
    by_cases hn : n = a <;> simp [hn]

lemma tombstones_foldl_remove (ts : ℕ) (removed : List UniqueAddress) (g : Gossip) :
    (removed.foldl (fun g n => g.remove n ts) g).tombstones.lookup n =
      if n ∈ removed then some ts else g.tombstones.lookup n := by
  induction removed generalizing g with
  | nil => simp
  | cons a removed ih =>
    rw [foldl_cons, ih, remove, FinMap.lookup_insert]
    by_cases hn : n = a <;> simp [hn]

lemma version_foldl_remove (ts : ℕ) (removed : List UniqueAddress) (g : Gossip) (d : String) :
    (removed.foldl (fun g n => g.remove n ts) g).version.get d =
      if d ∈ removed.map vclockNode then 0 else g.version.get d := by
  induction removed generalizing g with
  | nil => simp
  | cons a removed ih =>
    have hv : (g.remove a ts).version.get d = if d = vclockNode a then 0 else g.version.get d :=
      FinMap.count_erase _ _ _
    rw [foldl_cons, ih, hv]
    by_cases hn : d = vclockNode a <;> simp [hn]

/-! ## A safe pass -/

/-- What a pass over a converged gossip may do. -/
structure Safe (g : Gossip) (selfNode : UniqueAddress) (timestamp : ℕ)
    (exitingConfirmed : Finset UniqueAddress) (o : LeaderActionOutcome) : Prop where
  unchanged : o.changed = false → o.gossip = g
  added : ∀ n, g.member n = none → o.gossip.member n = none
  removed : ∀ n m, g.member n = some m →
    (o.gossip.member n = none ↔ Removable g exitingConfirmed m)
  tombstones : ∀ n, o.gossip.tombstones.lookup n =
    if n ∈ o.removedMembers then some timestamp else g.tombstones.lookup n
  tombstoned : ∀ n, n ∈ o.removedMembers ↔
    ∃ m, g.member n = some m ∧ Removable g exitingConfirmed m
  status : ∀ n m c, g.member n = some m → o.gossip.member n = some c → c.status = m.status ∨
    (m.status = .joining ∨ m.status = .weaklyUp) ∧ c.status = .up ∨
    m.status = .leaving ∧ c.status = .exiting
  numberKept : ∀ n m c k, g.member n = some m → o.gossip.member n = some c →
    m.upNumber = some k → c.upNumber = some k
  numberNew : ∀ n m c k, g.member n = some m → o.gossip.member n = some c →
    m.upNumber = none → c.upNumber = some k → ∀ m' ∈ g.members, ∀ k', m'.upNumber = some k' → k' < k
  numberDistinct : ∀ n n' m m' c c' k, g.member n = some m → g.member n' = some m' →
    o.gossip.member n = some c → o.gossip.member n' = some c' → m.upNumber = none →
    m'.upNumber = none → c.upNumber = some k → c'.upNumber = some k → n = n'
  version : o.changed = true →
    (∀ d ∉ o.removedMembers.map vclockNode, g.version.get d ≤ o.gossip.version.get d) ∧
      ∃ d ∉ o.removedMembers.map vclockNode, g.version.get d < o.gossip.version.get d
  seen : o.changed = true → o.gossip.seen = {selfNode}

/-- A gossip on which a pass loses nothing: no member that still has to be promoted has a number, and
no member that shares the leader's clock entry, such as the leader itself, is due for removal. -/
def Sound (g : Gossip) (self : UniqueAddress) (exitingConfirmed : Finset UniqueAddress) : Prop :=
  ∀ m ∈ g.members,
    (m.status = .joining ∨ m.status = .weaklyUp → m.upNumber = none) ∧
      (Removable g exitingConfirmed m → vclockNode m.uniqueAddress ≠ vclockNode self)

instance : Decidable (Sound g self confirmed) :=
  inferInstanceAs (Decidable (∀ m ∈ g.members, _ ∧ _))

/-- The gossip after a pass that changes something. -/
def passed (g : Gossip) (self : UniqueAddress) (timestamp : ℕ)
    (exitingConfirmed : Finset UniqueAddress) : Gossip :=
  (((removedMembers g exitingConfirmed).foldl (fun g n => g.remove n timestamp)
    (g.updateMembers (changedMembers g))).incrementVersion self).onlySeen self

lemma member_passed : (passed g self ts confirmed).member n =
    if n ∈ removedMembers g confirmed then none
    else (g.updateMembers (changedMembers g)).member n :=
  member_foldl_remove _ _ _

variable (changed : List Member)

lemma version_updateMembers : (g.updateMembers changed).version = g.version := by
  unfold updateMembers
  split_ifs <;> rfl

lemma tombstones_updateMembers : (g.updateMembers changed).tombstones = g.tombstones := by
  unfold updateMembers
  split_ifs <;> rfl

lemma version_passed (d : String) : (passed g self ts confirmed).version.get d =
    if d = vclockNode self then
      (if d ∈ (removedMembers g confirmed).map vclockNode then 0 else g.version.get d) + 1
    else if d ∈ (removedMembers g confirmed).map vclockNode then 0 else g.version.get d := by
  refine (VectorClock.get_increment _ _ _).trans ?_
  rw [version_foldl_remove, version_foldl_remove, version_updateMembers]
  by_cases hd : d = vclockNode self
  · rw [if_pos hd, if_pos hd, hd]
  · rw [if_neg hd, if_neg hd]

section

variable (hn : g.Normalized)

include hn

lemma member_of_passed (hm : g.member n = some m)
    (hc : (passed g self ts confirmed).member n = some c) :
    c = m ∧ m.status ≠ .joining ∧ m.status ≠ .weaklyUp ∧ m.status ≠ .leaving ∨
      c ∈ changedMembers g ∧ ∃ k ≥ nextUpNumber g, Advanced m k c := by
  obtain ⟨c', hc', h⟩ := member_changed hn hm
  rw [member_passed, hc'] at hc
  split_ifs at hc
  cases hc
  exact h

lemma number_of_passed (hm : g.member n = some m)
    (hc : (passed g self ts confirmed).member n = some c) (hnone : m.upNumber = none)
    (hk : c.upNumber = some k) : c ∈ changedMembers g ∧ c.status = .up ∧ nextUpNumber g ≤ k := by
  rcases member_of_passed hn hm hc with ⟨rfl, -⟩ | ⟨hmem, k', hk', ha⟩
  · cases hnone.symm.trans hk
  · cases ha with
    | promoted =>
      cases hk
      exact ⟨hmem, rfl, hk'⟩
    | exiting => cases hnone.symm.trans hk

lemma safe_passed (hs : Sound g self confirmed)
    (hch : ¬ ((removedMembers g confirmed).isEmpty ∧ (changedMembers g).isEmpty)) :
    Safe g self ts confirmed
      ⟨passed g self ts confirmed, changedMembers g, removedMembers g confirmed⟩ where
  unchanged h := by
    simp [LeaderActionOutcome.changed] at h
    simp [h] at hch
  added n h := by
    rw [member_passed, member_updateMembers hn, h]
    simp
  removed n m hm := by
    obtain ⟨c, hc, -⟩ := member_changed hn hm
    rw [member_passed, hc, ite_eq_left_iff, mem_removedMembers hn, hm]
    simp
  tombstones n := by
    refine (tombstones_foldl_remove _ _ _).trans ?_
    rw [tombstones_updateMembers]
  tombstoned _ := mem_removedMembers hn
  status n m c hm hc := by
    rcases member_of_passed hn hm hc with ⟨rfl, -⟩ | ⟨-, k, -, ha⟩
    · exact .inl rfl
    · cases ha with
      | promoted h => exact .inr (.inl ⟨h, rfl⟩)
      | exiting h => exact .inr (.inr ⟨h, rfl⟩)
  numberKept n m c k hm hc hk := by
    rcases member_of_passed hn hm hc with ⟨rfl, -⟩ | ⟨-, k, -, ha⟩
    · exact hk
    · cases ha with
      | promoted h => cases hk.symm.trans ((hs m (mem_of_member hm).1).1 h)
      | exiting => exact hk
  numberNew n m c k hm hc hnone hk m' hm' k' hk' := by
    obtain ⟨-, -, hle⟩ := number_of_passed hn hm hc hnone hk
    exact (lt_nextUpNumber hm' hk').trans_le hle
  numberDistinct n n' m m' c c' k hm hm' hc hc' hnone hnone' hk hk' := by
    obtain ⟨hmem, hup, -⟩ := number_of_passed hn hm hc hnone hk
    obtain ⟨hmem', hup', -⟩ := number_of_passed hn hm' hc' hnone' hk'
    have he : c = c' := by
      by_contra hne
      have : Std.Symm fun c c' : Member =>
          c.status = .up → c'.status = .up → c.upNumber ≠ c'.upNumber :=
        ⟨fun _ _ h h1 h2 => (h h2 h1).symm⟩
      exact pairwise_upNumber.forall hmem hmem' hne hup hup' (hk.trans hk'.symm)
    rw [← (mem_of_member hc).2, ← (mem_of_member hc').2, he]
  version _ := by
    have hself : vclockNode self ∉ (removedMembers g confirmed).map vclockNode := by
      intro hmem
      obtain ⟨n, hr, he⟩ := mem_map.mp hmem
      obtain ⟨m, hm, hrem⟩ := (mem_removedMembers hn).mp hr
      obtain ⟨hmem, rfl⟩ := mem_of_member hm
      exact (hs m hmem).2 hrem he
    refine ⟨fun d hd => ?_, vclockNode self, hself, ?_⟩
    · rw [version_passed, if_neg hd]
      split_ifs <;> omega
    · rw [version_passed, if_pos rfl, if_neg hself]
      exact Nat.lt_succ_self _
  seen _ := rfl

lemma sound_of_safe_passed (h : Safe g self ts confirmed
      ⟨passed g self ts confirmed, changedMembers g, removedMembers g confirmed⟩)
    (hch : ¬ ((removedMembers g confirmed).isEmpty ∧ (changedMembers g).isEmpty)) :
    Sound g self confirmed := by
  refine fun m hmem => ⟨fun hs => ?_, fun hrem he => ?_⟩
  · have hm := member_of_mem hn hmem
    have hstays : (passed g self ts confirmed).member m.uniqueAddress ≠ none := by
      intro hnone
      rcases ((h.removed _ m hm).mp hnone).1 with h' | h' <;> simp [h'] at hs
    obtain ⟨c, hc⟩ := Option.ne_none_iff_exists'.mp hstays
    by_contra hsome
    obtain ⟨k, hk⟩ := Option.ne_none_iff_exists'.mp hsome
    have hck := h.numberKept _ m c k hm hc hk
    have hlt := lt_nextUpNumber hmem hk
    rcases member_of_passed hn hm hc with ⟨-, h1, h2, -⟩ | ⟨-, k', hk', ha⟩
    · exact hs.elim h1 h2
    · cases ha with
      | promoted =>
        cases hck
        omega
      | exiting h' => simp [h'] at hs
  · have hd : vclockNode self ∈ (removedMembers g confirmed).map vclockNode :=
      he ▸ mem_map_of_mem ((mem_removedMembers hn).mpr ⟨m, member_of_mem hn hmem, hrem⟩)
    have hchanged : LeaderActionOutcome.changed
        ⟨passed g self ts confirmed, changedMembers g, removedMembers g confirmed⟩ = true := by
      simp only [LeaderActionOutcome.changed]
      grind
    -- only the leader's own counter could have grown
    obtain ⟨d, hd', hlt⟩ := (h.version hchanged).2
    rw [version_passed, if_neg (fun e : d = vclockNode self => hd' (e ▸ hd)), if_neg hd'] at hlt
    exact lt_irrefl _ hlt

lemma sound_of_quiet (hr : removedMembers g confirmed = []) (hc : changedMembers g = []) :
    Sound g self confirmed := by
  refine fun m hmem => ⟨fun hs => ?_, fun hrem => ?_⟩
  · obtain ⟨c, hc', -⟩ := exists_changed (nextUpNumber g) hmem (hs.imp_right .inl)
    rw [← changedMembers, hc] at hc'
    cases hc'
  · have hm := (mem_removedMembers hn).mpr ⟨m, member_of_mem hn hmem, hrem⟩
    rw [hr] at hm
    cases hm

lemma safe_quiet (hr : removedMembers g confirmed = []) :
    Safe g self ts confirmed ⟨g, [], []⟩ where
  unchanged _ := rfl
  added _ h := h
  removed n m hm := by
    have hnr : n ∉ removedMembers g confirmed := by simp [hr]
    rw [mem_removedMembers hn] at hnr
    simp only [hm, reduceCtorEq, false_iff]
    exact fun h => hnr ⟨m, hm, h⟩
  tombstones _ := by simp
  tombstoned n := by rw [← mem_removedMembers hn, hr]
  status n m c hm hc := .inl (by cases hm.symm.trans hc; rfl)
  numberKept n m c k hm hc hk := by cases hm.symm.trans hc; exact hk
  numberNew n m c k hm hc hnone hk := by
    cases hm.symm.trans hc
    cases hnone.symm.trans hk
  numberDistinct n n' m m' c c' k hm hm' hc hc' hnone hnone' hk hk' := by
    cases hm.symm.trans hc
    cases hnone.symm.trans hk
  version h := by cases h
  seen h := by cases h

end

/-- The result of a pass: an error with the members that block it while the gossip has not converged,
and otherwise a safe outcome. -/
def SafeResult (g : Gossip) (self : UniqueAddress) (timestamp : ℕ)
    (exitingConfirmed : Finset UniqueAddress) : Prop :=
  match onConvergence g self timestamp exitingConfirmed with
  | .error blockers => blockers ≠ [] ∧
    blockers = Convergence.checkWithExitingConfirmed g self exitingConfirmed
  | .ok o => Convergence.checkWithExitingConfirmed g self exitingConfirmed = [] ∧
    Safe g self timestamp exitingConfirmed o

/-- A pass is safe exactly on a gossip that has not converged or on which it loses nothing. -/
theorem onConvergence_safe_iff (g : Gossip) (hn : g.Normalized) (self : UniqueAddress)
    (timestamp : ℕ) (exitingConfirmed : Finset UniqueAddress) :
    SafeResult g self timestamp exitingConfirmed ↔
      (Convergence.checkWithExitingConfirmed g self exitingConfirmed = [] →
        Sound g self exitingConfirmed) := by
  rw [SafeResult, onConvergence]
  by_cases hb : Convergence.checkWithExitingConfirmed g self exitingConfirmed = []
  · simp only [hb, ne_eq, not_true_eq_false, if_false, true_imp_iff]
    by_cases he : (removedMembers g exitingConfirmed).isEmpty ∧ (changedMembers g).isEmpty
    · obtain ⟨hr, hc⟩ := he
      rw [List.isEmpty_iff] at hr hc
      simp only [hr, hc, isEmpty_nil, and_self, if_true, true_and]
      exact iff_of_true (safe_quiet hn hr) (sound_of_quiet hn hr hc)
    · simp only [he, if_false, true_and]
      exact ⟨fun h => sound_of_safe_passed hn h he, fun h => safe_passed hn h he⟩
  · simp [hb]

/-- A leader promotes a joining member and removes one that is down. -/
theorem onConvergence_safe_joining :
    SafeResult (((Gossip.fromMembers
        [((Member.new (.localTo "a" 1) []).withStatus .up).withUpNumber 1,
          Member.new (.localTo "b" 2) [], (Member.new (.localTo "c" 3) []).withStatus
            .down]).withReachability
        (Reachability.new.unreachable (.localTo "a" 1) (.localTo "c" 3))).onlySeen (.localTo "a" 1))
      (.localTo "a" 1) 9 ∅ :=
  (onConvergence_safe_iff _ (by decide +kernel) _ _ _).mpr (by decide +kernel)

/-- A leader that has confirmed its own exit removes itself, and its counter starts again at one. -/
theorem onConvergence_unsafe_self :
    ¬ SafeResult { Gossip.fromMembers [(Member.new (.localTo "a" 1) []).withStatus .exiting] with
        version := VectorClock.new.increment (vclockNode (.localTo "a" 1)) }
      (.localTo "a" 1) 9 {.localTo "a" 1} := by
  intro h
  have hsound := sound_of_safe_passed (by decide) h.2 (by decide)
  revert hsound
  decide

end LeaderActions

end Kairo.Cluster
