import Kairo.DistributedData.KeyViews

/-!
# Removed elements stay absent

Every step of the replicas changes what one replica knows about one key, or sends a full state; the
invariant of the views is kept for every key, and `removed_absent` reads it.
-/

set_option linter.unusedSectionVars false

namespace Kairo.DistributedData

open Kairo.Lib Replica ReplicatorState List FinMap Function Option ORSetDelta Machine.Reach

variable {T R K : Type*} [DecidableEq T] [DecidableEq R] [DecidableEq K] {d : ORSetDelta T R}

/-! ## Views of the replicas -/

namespace Replica

def view (p : Replica T R K) (key : K) : KeyView T R where
  set := p.set key
  log := (p.logOf key).map deltaOps
  received := p.receivedOf key
  tracked source := p.tracker.currentVersion source key

/-- Stored sets have no pending delta. -/
def Clean (p : Replica T R K) : Prop := ∀ key, (p.value key).delta = none

variable (p : Replica T R K) {key key' : K} {data : ORSet T R}

/-- The set a local update leaves behind. -/
def updated (key : K) (self : R) (ops : List (SetUpdate T)) : ORSet T R :=
  ops.foldl (ORSet.update self) (p.value key)

/-- A full state, merged into the stored one. -/
def merged (key : K) (data : ORSet T R) : ORSet T R :=
  match p.state.entries.lookup key with
  | some existing => existing.merge data
  | none => data

lemma update_eq (key : K) (self : R) (ops : List (SetUpdate T)) :
    p.update key self ops =
      { p with
        state := (p.state.setData key (p.merged key (p.updated key self ops).resetDelta)).1
        log := p.log.insert key (p.logOf key ++ [(p.updated key self ops).delta])
        received := p.received.insert key
          (insert (self, (p.logOf key).length + 1) (p.receivedOf key)) } := by
  unfold update updateLocal merged updated value
  cases p.state.entries.lookup key <;> rfl

lemma applyDelta_cases (key : K) (source : R) (i j : ℕ) (d : ORSetDelta T R) :
    p.applyDelta key source i j d = p ∨
      (i ≠ 0 ∧ i ≤ j ∧ p.tracker.currentVersion source key < j ∧
        i ≤ p.tracker.currentVersion source key + 1 ∧
        p.applyDelta key source i j d =
          { p with
            state := (p.state.setData key ((p.value key).mergeDelta d)).1
            tracker := ⟨p.tracker.versions.insert (source, key) j⟩
            received := p.received.insert key
              (p.receivedOf key ∪ (Finset.Icc i j).image (source, ·)) }) := by
  unfold applyDelta DeltaReceiveTracker.applyDelta
  dsimp only
  split_ifs with h1 h2 h3
  · exact .inl rfl
  · exact .inl rfl
  · exact .inl rfl
  · refine .inr ⟨by omega, by omega, by omega, by omega, ?_⟩
    unfold writeDelta value
    cases p.state.entries.lookup key <;> rfl

lemma writeFull_eq (key : K) (data : ORSet T R) (received : Finset (R × ℕ)) :
    p.writeFull key data received =
      { p with
        state := (p.state.setData key (p.merged key data)).1
        received := p.received.insert key (p.receivedOf key ∪ received) } := by
  unfold writeFull ReplicatorState.writeFull merged
  cases p.state.entries.lookup key <;> rfl

lemma delta_merged (hd : data.delta = none) : (p.merged key data).delta = none := by
  unfold merged
  split
  · rfl
  · exact hd

/-- The empty set is neutral, so that an absent entry makes no difference. -/
lemma merged_eq {H : History T R} {P : ORSetRemoveDelta T R → Prop} (hH : HistoryInv H)
    (hs : Sound H P data.toORSetCore) :
    (p.merged key data).toORSetCore = (p.set key).merge data.toORSetCore := by
  unfold merged set value
  cases p.state.entries.lookup key with
  | none => exact (hs.new_merge hH).symm
  | some existing => rfl

lemma view_changed (d : ORSet T R) (log : FinMap K (DeltaLog (ORSetDelta T R)))
    (tracker : DeltaReceiveTracker R K) (us : Finset (R × ℕ)) :
    view ⟨(p.state.setData key d).1, tracker, log, p.received.insert key us⟩ key =
      ⟨d.toORSetCore, ((log.lookup key).getD []).map deltaOps, us,
        fun source => tracker.currentVersion source key⟩ := by
  rw [view, set, value, logOf, receivedOf, setData]
  rw [Finmap.lookup_insert, Finmap.lookup_insert]
  rfl

lemma view_unchanged (hne : key' ≠ key) (d : ORSet T R) (log : FinMap K (DeltaLog (ORSetDelta T R)))
    (tracker : DeltaReceiveTracker R K) (us : Finset (R × ℕ))
    (hlog : log.lookup key' = p.log.lookup key')
    (htr : ∀ source, tracker.currentVersion source key' = p.tracker.currentVersion source key') :
    view ⟨(p.state.setData key d).1, tracker, log, p.received.insert key us⟩ key' = p.view key' := by
  rw [view, set, value, logOf, receivedOf, setData]
  rw [lookup_insert, if_neg hne, lookup_insert, if_neg hne, hlog]
  simp only [htr]
  rfl

lemma value_changed (d : ORSet T R) (log : FinMap K (DeltaLog (ORSetDelta T R)))
    (tracker : DeltaReceiveTracker R K) (us : FinMap K (Finset (R × ℕ))) :
    value ⟨(p.state.setData key d).1, tracker, log, us⟩ key' =
      if key' = key then d else p.value key' := by
  rw [value, setData]
  rw [lookup_insert]
  split_ifs <;> rfl

end Replica

/-! ## Payloads -/

lemma foldl_merge_ops {first : Option (ORSetDelta T R)} {rest : DeltaLog (ORSetDelta T R)}
    (h : rest.foldl (fun acc next => acc.bind fun a => next.map (merge a)) first = some d) :
    d.ops = deltaOps first ++ rest.flatMap deltaOps := by
  induction rest generalizing first with
  | nil =>
    rw [foldl_nil] at h
    rw [h, flatMap_nil, append_nil]
    rfl
  | cons next rest ih =>
    rw [foldl_cons] at h
    have hnone : rest.foldl (fun acc next => acc.bind fun a => next.map (merge a))
        none = none := by
      clear ih h
      induction rest with
      | nil => rfl
      | cons next rest ih => exact ih
    cases first with
    | none => exact absurd (h.symm.trans hnone) (by simp)
    | some a =>
      cases next with
      | none => exact absurd (h.symm.trans hnone) (by simp)
      | some b =>
        rw [ih h, flatMap_cons, ← append_assoc]
        congr 1
        exact ops_merge a b

lemma mergeDeltaGroup_ops {log : DeltaLog (ORSetDelta T R)}
    (h : mergeDeltaGroup merge log = some d) : d.ops = log.flatMap deltaOps := by
  cases log with
  | nil => cases h
  | cons first rest =>
    rw [flatMap_cons]
    exact foldl_merge_ops h

namespace ReplicaWorld

variable {w : ReplicaWorld T R K} {key : K} {q source : R} {i j : ℕ}

def views (w : ReplicaWorld T R K) (key : K) : R → KeyView T R := fun q => (w.replica q).view key

section

variable (h : w.payload source key i j = some d)

include h

lemma payload_ops :
    i ≠ 0 ∧ i ≤ j ∧ j ≤ (w.views key source).log.length ∧
      d.ops = (((w.views key source).log.take j).drop (i - 1)).flatten := by
  unfold payload at h
  dsimp only at h
  split_ifs at h with hij
  have hlen : (w.views key source).log.length = ((w.replica source).logOf key).length :=
    length_map ..
  refine ⟨by tauto, ?_, by omega, ?_⟩
  · -- an empty range has no payload
    by_contra hlt
    rw [DeltaLog.range, drop_eq_nil_of_le (by rw [length_take]; omega)] at h
    cases h
  · rw [mergeDeltaGroup_ops h, DeltaLog.range, flatMap_def, views, view, map_drop, map_take]

lemma payload_numbered (hH : HistoryInv (w.history key)) :
    Numbered source (addCount ((w.views key source).log.take (i - 1)).flatten) d.ops ∧
      (∀ op ∈ d.ops, op ∈ w.history key source) ∧
      addCount ((w.views key source).log.take j).flatten =
        addCount ((w.views key source).log.take (i - 1)).flatten + addCount d.ops := by
  obtain ⟨-, hij, -, hops⟩ := payload_ops h
  have htake : (w.views key source).log.take (i - 1) ++
      ((w.views key source).log.take j).drop (i - 1) = (w.views key source).log.take j := by
    have h1 : ((w.views key source).log.take j).take (i - 1) =
        (w.views key source).log.take (i - 1) := by
      rw [take_take, min_eq_left (by omega)]
    rw [← h1, take_append_drop]
  have hcat : ((w.views key source).log.take j).flatten =
      ((w.views key source).log.take (i - 1)).flatten ++ d.ops := by
    rw [hops, ← flatten_append, htake]
  have hsplit : w.history key source =
      (((w.views key source).log.take (i - 1)).flatten ++ d.ops) ++
        ((w.views key source).log.drop j).flatten := by
    rw [← hcat, ← flatten_append, take_append_drop]
    rfl
  refine ⟨?_, fun op hop => ?_, by rw [hcat, addCount_append]⟩
  · have hn := hH.numbered source
    rw [hsplit, numbered_append, numbered_append, Nat.zero_add] at hn
    exact hn.1.2
  · rw [hsplit]
    exact mem_append_left _ (mem_append_right _ hop)

lemma mem_payload {v : ℕ} (hv : v ∈ Finset.Icc i j) {op : SetOp T R}
    (hop : op ∈ ((w.views key source).log[v - 1]?).getD []) : op ∈ d.ops := by
  obtain ⟨hi, hij, hj, hops⟩ := payload_ops h
  rw [Finset.mem_Icc] at hv
  cases he : (w.views key source).log[v - 1]? with
  | none => rw [he] at hop; cases hop
  | some ops =>
    rw [he] at hop
    rw [hops]
    refine mem_flatten.mpr ⟨ops, mem_of_getElem? (i := v - i) ?_, hop⟩
    rw [getElem?_drop, getElem?_take_of_lt (by omega), ← he]
    congr 1
    omega

end

lemma replica_insert (w : ReplicaWorld T R K) (p : Replica T R K) (r : R) :
    ({ w with replicas := w.replicas.insert q p } : ReplicaWorld T R K).replica r =
      if r = q then p else w.replica r := by
  unfold replica
  rw [lookup_insert]
  split_ifs <;> rfl

lemma views_insert (w : ReplicaWorld T R K) (p : Replica T R K) :
    ({ w with replicas := w.replicas.insert q p } : ReplicaWorld T R K).views key =
      update (w.views key) q (p.view key) := by
  funext r
  rw [views, replica_insert]
  by_cases hr : r = q
  · subst hr
    rw [if_pos rfl, update_self]
  · rw [if_neg hr, update_of_ne hr, views]

/-! ## The invariant -/

/-- The full states of a key that were sent. -/
def OnItsWay (w : ReplicaWorld T R K) (key : K) (s : ORSetCore T R) (received : Finset (R × ℕ)) :
    Prop :=
  ∃ m ∈ w.sent, m.key = key ∧ m.data.toORSetCore = s ∧ m.received = received

structure Inv (w : ReplicaWorld T R K) : Prop where
  clean : ∀ q, (w.replica q).Clean
  cleanSent : ∀ m ∈ w.sent, m.data.delta = none
  views : ∀ key, ViewsInv (w.views key) (w.OnItsWay key)

lemma inv_start : Inv (start : ReplicaWorld T R K) := by
  refine ⟨fun q key => rfl, fun m hm => absurd hm not_mem_nil, fun key => ?_⟩
  have hno : ∀ op : ORSetRemoveDelta T R,
      Reached (start.views key) ∅ op → False := by
    rintro op ⟨u, hu, -⟩
    simp at hu
  constructor
  · exact ⟨fun r => trivial, fun r op hop => by cases hop⟩
  · intro q
    exact Sound.new.weaken hno
  · exact fun q => rfl
  · exact fun q r => ⟨Nat.zero_le _, Nat.zero_le _⟩
  · intro q u hu
    exact absurd hu (Finset.notMem_empty u)
  · rintro s received ⟨m, hm, -⟩
    cases hm

lemma Inv.insert (h : Inv w) (key : K) {p : Replica T R K} (hclean : p.Clean)
    (hother : ∀ key', key' ≠ key → p.view key' = (w.replica q).view key')
    (hkey : ViewsInv (update (w.views key) q (p.view key)) (w.OnItsWay key)) :
    Inv { w with replicas := w.replicas.insert q p } := by
  refine ⟨fun r => ?_, h.cleanSent, fun key' => ?_⟩
  · rw [replica_insert]
    split_ifs
    · exact hclean
    · exact h.clean r
  · rw [views_insert]
    by_cases hk : key' = key
    · subst hk
      exact hkey
    · have hself : p.view key' = w.views key' q := hother key' hk
      rw [hself, update_eq_self]
      exact h.views key'

lemma inv_update (h : Inv w) {ops : List (SetUpdate T)} (hc : w.Careful (.update q key ops)) :
    Inv { w with replicas := w.replicas.insert q ((w.replica q).update key q ops) } := by
  have hv := h.views key
  obtain ⟨new, hrun⟩ := LocalRun.updates ops hv.history
    (fun op hop => ViewsInv.reached_mem_history hop) (hv.sound q) (hv.own q) hc
  have hnew : deltaOps ((w.replica q).updated key q ops).delta = new := by
    have := hrun.delta
    rwa [h.clean q key] at this
  have hset : ((w.replica q).merged key ((w.replica q).updated key q ops).resetDelta).toORSetCore =
      ((w.replica q).set key).merge ((w.replica q).updated key q ops).toORSetCore :=
    (w.replica q).merged_eq hrun.history hrun.sound
  have hvv : ∀ r, (((w.replica q).set key).merge
      ((w.replica q).updated key q ops).toORSetCore).versionVector.versionAt r =
      ((w.replica q).updated key q ops).versionVector.versionAt r := fun r =>
    (VersionVector.versionAt_merge _ _ _).trans (max_eq_right (hrun.mono r))
  rw [update_eq]
  refine h.insert key (fun key' => ?_) (fun key' hk => ?_) ?_
  · rw [value_changed]
    split_ifs
    · exact (w.replica q).delta_merged rfl
    · exact h.clean q key'
  · refine (w.replica q).view_unchanged hk _ _ _ _ ?_ fun _ => rfl
    rw [lookup_insert, if_neg hk]
  · rw [view_changed]
    refine hv.append ?_ hrun.history hrun.numbered ?_ ?_ (fun r => ?_) rfl ?_
    · rw [Finmap.lookup_insert, getD_some, map_append, map_singleton, hnew]
      rfl
    · rw [hset]
      refine (Sound.merge hrun.history (hv.sound q |>.extend hv.history hrun.numbered fun op hop =>
        ViewsInv.reached_mem_history hop) hrun.sound).weaken fun op hop => .inr hop
    · rw [hset, hvv]
      exact hrun.own
    · rw [hset, hvv]
      exact hrun.mono r
    · rw [views, view, length_map]

lemma inv_deliver (h : Inv w) (hd : w.payload source key i j = some d)
    (hc : w.Careful (.deliver q source key i j)) : Inv { w with
      replicas := w.replicas.insert q ((w.replica q).applyDelta key source i j d) } := by
  have hv := h.views key
  obtain ⟨hi, -, hj, -⟩ := payload_ops hd
  rcases (w.replica q).applyDelta_cases key source i j d with he | ⟨-, hij, hlt, hgap, he⟩
  · rw [he]
    refine h.insert key (h.clean q) (fun _ _ => rfl) ?_
    have hself : (w.replica q).view key = w.views key q := rfl
    rw [hself, update_eq_self]
    exact hv
  have hcareful := hc hgap hlt
  rw [hd] at hcareful
  obtain ⟨hnum, hmem, hcat⟩ := payload_numbered hd hv.history
  have hprev : addCount ((w.views key source).log.take (i - 1)).flatten ≤
      ((w.replica q).set key).versionVector.versionAt source := by
    refine le_trans ?_ (hv.tracked q source).2
    have hle : i - 1 ≤ (w.views key q).tracked source := by
      have : (w.views key q).tracked source = (w.replica q).tracker.currentVersion source key := rfl
      omega
    rw [← take_append_drop (i - 1) ((w.views key source).log.take ((w.views key q).tracked source)),
      take_take, min_eq_left hle, flatten_append, addCount_append]
    omega
  have hrs : ∀ r, r ∉ w.replicas.keys → w.history key r = [] := by
    intro r hr
    rw [Finmap.mem_keys] at hr
    rw [history, replica, Finmap.lookup_eq_none.mpr hr]
    rfl
  obtain ⟨hsound, hcount⟩ := Sound.replay hv.history hrs (hv.sound q) hnum hmem hprev hcareful
  have hset : ((w.replica q).value key |>.mergeDelta d).toORSetCore =
      d.ops.foldl ORSetCore.replay ((w.replica q).set key) := ORSet.mergeDelta_eq_foldl _ d
  rw [he]
  refine h.insert key (fun key' => ?_) (fun key' hk => ?_) ?_
  · rw [value_changed]
    split_ifs
    · exact ORSet.delta_mergeDelta _ (h.clean q key) d
    · exact h.clean q key'
  · refine (w.replica q).view_unchanged hk _ _ _ _ rfl fun r => ?_
    unfold DeltaReceiveTracker.currentVersion
    rw [FinMap.count_insert, if_neg fun e => hk (congrArg Prod.snd e)]
  · rw [view_changed, hset]
    refine hv.change rfl ?_ (fun r => ORSetCore.versionAt_foldl_le _ _ r) (fun r => ?_) ?_
    · refine hsound.weaken fun op hop => ?_
      obtain ⟨u, hu, hop⟩ := hop
      rcases Finset.mem_union.mp hu with hu | hu
      · exact .inl ⟨u, hu, hop⟩
      · obtain ⟨v, hv', rfl⟩ := Finset.mem_image.mp hu
        exact .inr (mem_payload hd hv' hop)
    · dsimp only
      unfold DeltaReceiveTracker.currentVersion
      rw [FinMap.count_insert]
      split_ifs with hr
      · obtain rfl : r = source := congrArg Prod.fst hr
        exact ⟨hj, hcat.trans_le hcount⟩
      · exact ⟨(hv.tracked q r).1, (hv.tracked q r).2.trans (ORSetCore.versionAt_foldl_le _ _ r)⟩
    · intro u hu
      rcases Finset.mem_union.mp hu with hu | hu
      · exact hv.recorded q u hu
      · obtain ⟨v, hv', rfl⟩ := Finset.mem_image.mp hu
        rw [Finset.mem_Icc] at hv'
        exact ⟨by omega, hv'.2.trans hj⟩

lemma inv_send (h : Inv w) (hd : (w.replica q).state.entries.lookup key = some data) :
    Inv { w with sent := w.sent ++ [⟨key, data, (w.replica q).receivedOf key⟩] } := by
  have hvalue : (w.replica q).value key = data := by rw [value, hd]; rfl
  refine ⟨h.clean, forall_mem_append.mpr ⟨h.cleanSent, forall_mem_singleton.mpr ?_⟩, fun key' => ?_⟩
  · rw [← hvalue]
    exact h.clean q key
  · have hv := h.views key'
    refine ⟨hv.history, hv.sound, hv.own, hv.tracked, hv.recorded, ?_⟩
    rintro s received ⟨m, hm, hk, hs, hr⟩
    rcases mem_append.mp hm with hm | hm
    · exact hv.sent s received ⟨m, hm, hk, hs, hr⟩
    · obtain rfl := mem_singleton.mp hm
      subst hk hs hr
      rw [← hvalue]
      exact ⟨hv.sound q, hv.recorded q⟩

lemma inv_receive (h : Inv w) {m : FullState T R K} (hm : m ∈ w.sent) :
    Inv { w with
      replicas := w.replicas.insert q ((w.replica q).writeFull m.key m.data m.received) } := by
  have hv := h.views m.key
  obtain ⟨hs, hrec⟩ := hv.sent _ _ ⟨m, hm, rfl, rfl, rfl⟩
  have hset : ((w.replica q).merged m.key m.data).toORSetCore =
      ((w.replica q).set m.key).merge m.data.toORSetCore :=
    (w.replica q).merged_eq hv.history hs
  have hle : ∀ r, ((w.replica q).set m.key).versionVector.versionAt r ≤
      (((w.replica q).set m.key).merge m.data.toORSetCore).versionVector.versionAt r := fun r =>
    (le_max_left _ _).trans (VersionVector.versionAt_merge _ _ _).symm.le
  rw [writeFull_eq]
  refine h.insert m.key (fun key' => ?_) (fun key' hk => ?_) ?_
  · rw [value_changed]
    split_ifs
    · exact (w.replica q).delta_merged (h.cleanSent m hm)
    · exact h.clean q key'
  · exact (w.replica q).view_unchanged hk _ _ _ _ rfl fun _ => rfl
  · rw [view_changed, hset]
    refine hv.change rfl ?_ hle (fun r => ?_) ?_
    · refine (Sound.merge hv.history (hv.sound q) hs).weaken fun op hop => ?_
      obtain ⟨u, hu, hop⟩ := hop
      exact (Finset.mem_union.mp hu).imp (fun hu => ⟨u, hu, hop⟩) fun hu => ⟨u, hu, hop⟩
    · exact ⟨(hv.tracked q r).1, (hv.tracked q r).2.trans (hle r)⟩
    · intro u hu
      exact (Finset.mem_union.mp hu).elim (hv.recorded q u) (hrec u)

lemma inv_step {a : Action T R K} {w' : ReplicaWorld T R K} (h : Inv w) (hc : w.Careful a)
    (hs : w.step a = some w') : Inv w' := by
  cases a with
  | update q key ops =>
    cases hs
    exact inv_update h hc
  | deliver q source key i j =>
    obtain ⟨d, hd, rfl⟩ := map_eq_some_iff.mp hs
    exact inv_deliver h hd hc
  | send q key =>
    obtain ⟨data, hd, rfl⟩ := map_eq_some_iff.mp hs
    exact inv_send h hd
  | receive q i =>
    obtain ⟨m, hm, rfl⟩ := map_eq_some_iff.mp hs
    exact inv_receive h (mem_of_getElem? hm)

/-- **A removed element stays absent.**  In every careful run an element is absent at a replica that
a remove of it has reached, when the remove has observed all adds of it; and a range of deltas that
is settled at a replica leaves the set unchanged. -/
theorem removed_absent (hr : machine.Reach Careful w) :
    (∀ key q source version op, (source, version) ∈ (w.replica q).receivedOf key →
      SetOp.remove op ∈ w.updateOps key source version → w.ObservesAdds key op →
      ((w.replica q).set key).contains op.element = false) ∧
    ∀ key q source i j w', w.step (.deliver q source key i j) = some w' →
      (∀ op ∈ deltaOps (w.payload source key i j), Settled ((w.replica q).set key) op) →
      (w'.replica q).set key = (w.replica q).set key := by
  have h : Inv w := by
    refine hr.invariant ?_ fun s i t hs hok hst => inv_step hs hok hst
    rintro s rfl
    exact inv_start
  constructor
  · intro key q source version op hrec hop hall
    have hs := (h.views key).sound q
    refine hs.not_contains (hs.absent op ⟨_, hrec, ?_⟩ fun r n ha => ?_)
    · rw [views, view, getElem?_map]
      exact hop
    · exact hall r n ((mem_addDots (h.views key).history).mpr ha)
  · intro key q source i j w' hstep hset
    obtain ⟨d, hd, rfl⟩ := map_eq_some_iff.mp hstep
    obtain ⟨hnum, hmem, -⟩ := payload_numbered hd (h.views key).history
    rw [hd] at hset
    rw [replica_insert, if_pos rfl]
    rcases (w.replica q).applyDelta_cases key source i j d with he | ⟨-, -, -, -, he⟩
    · rw [he]
    · rw [he, Replica.set, Replica.value_changed, if_pos rfl, ORSet.mergeDelta_eq_foldl]
      exact ((h.views key).sound q).replay_settled (h.views key).history hnum hmem hset

end ReplicaWorld

/-! ## Three replicas and one element -/

namespace ThreeReplicas

open ReplicaWorld Action

/-- Replica `p` has removed the element with its first update, has observed all adds of it, and the
remove has reached replica `q`. -/
def removeReached (p q : Fin 3) (w : ReplicaWorld ℕ (Fin 3) Unit) : Bool :=
  decide ((p, 1) ∈ (w.replica q).receivedOf ()) &&
    (w.updateOps () p 1).any fun
      | .remove op => decide (op.element = 7 ∧ w.ObservesAdds () op)
      | .add _ => false

/-- The remove of replica `1` reaches replica `2` before the add of replica `0`, which it has
observed: it removes nothing, and the add brings the element back. -/
theorem contains_removed : ∃ w : ReplicaWorld ℕ (Fin 3) Unit, machine.Reachable w ∧
    (removeReached 1 2 w && decide ((0, 1) ∈ (w.replica 2).receivedOf ()) &&
      ((w.replica 2).set ()).contains 7) = true :=
  exists_of_exec
    [update 0 () [.add 7], deliver 1 0 () 1 1, update 1 () [.remove 7], deliver 2 1 () 1 1,
      deliver 2 0 () 1 1]
    rfl (by decide +kernel)

/-- The add comes first at both replicas.  A replica that has the full state after an add, a remove and
another add settles the range of the three deltas. -/
theorem removed_absent_threeReplicas :
    (∃ w : ReplicaWorld ℕ (Fin 3) Unit, machine.Reach Careful w ∧ removeReached 1 2 w = true ∧
      ((w.replica 2).set ()).contains 7 = false) ∧
    ∃ w w' : ReplicaWorld ℕ (Fin 3) Unit, machine.Reach Careful w ∧
      ((w.replica 2).set ()).contains 7 = true ∧ w.step (deliver 2 0 () 1 3) = some w' ∧
      (w'.replica 2).set () = (w.replica 2).set () := by
  constructor
  · obtain ⟨w, hr, hw⟩ : ∃ w : ReplicaWorld ℕ (Fin 3) Unit, machine.Reach Careful w ∧
        removeReached 1 2 w = true :=
      exists_of_exec
        [update 0 () [.add 7], send 0 (), receive 2 0, deliver 1 0 () 1 1, update 1 () [.remove 7],
          deliver 2 1 () 1 1]
        rfl (by decide +kernel)
    refine ⟨w, hr, hw, ?_⟩
    obtain ⟨hrec, hop⟩ := (Bool.and_eq_true _ _).mp hw
    obtain ⟨o, ho, htest⟩ := any_eq_true.mp hop
    cases o with
    | add set => cases htest
    | remove op =>
      obtain ⟨hx, hall⟩ := of_decide_eq_true htest
      rw [← hx]
      exact (removed_absent hr).1 () 2 1 1 op (of_decide_eq_true hrec) ho hall
  · obtain ⟨w, hr, hstep, hx, hset⟩ : ∃ w : ReplicaWorld ℕ (Fin 3) Unit, machine.Reach Careful w ∧
        (w.step (deliver 2 0 () 1 3)).isSome = true ∧ ((w.replica 2).set ()).contains 7 = true ∧
          ∀ op ∈ deltaOps (w.payload 0 () 1 3), Settled ((w.replica 2).set ()) op :=
      exists_of_exec
        [update 0 () [.add 7], update 0 () [.remove 7], update 0 () [.add 7], send 0 (), receive 2 0]
        rfl (by decide +kernel)
    obtain ⟨w', hw'⟩ := isSome_iff_exists.mp hstep
    exact ⟨w, w', hr, hx, hw', (removed_absent hr).2 () 2 0 1 3 w' hw' hset⟩

end ThreeReplicas

end Kairo.DistributedData
