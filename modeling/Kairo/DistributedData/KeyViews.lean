import Kairo.DistributedData.Replicas

/-!
# What the replicas know about one key

`KeyView` is what a replica knows about one key, and `ViewsInv` says that the set of every replica
and every full state on its way is sound for the operations in the logs and the removes that have
reached it.  It survives a change of one set (`ViewsInv.change`) and a local update
(`ViewsInv.append`), whose operations `LocalRun` describes.
-/

set_option linter.unusedSectionVars false

namespace Kairo.DistributedData

open Kairo.Lib Function List SetOp VersionVector

variable {T R : Type*} [DecidableEq T] [DecidableEq R]

/-! ## Views -/

/-- What a replica knows about one key.  `log` has the operations of each version. -/
structure KeyView (T R : Type*) where
  set : ORSetCore T R
  log : List (List (SetOp T R))
  received : Finset (R × ℕ)
  tracked : R → ℕ

def viewHistory (V : R → KeyView T R) : History T R := fun q => (V q).log.flatten

/-- The remove is part of one of the updates. -/
def Reached (V : R → KeyView T R) (received : Finset (R × ℕ)) (op : ORSetRemoveDelta T R) : Prop :=
  ∃ u ∈ received, SetOp.remove op ∈ ((V u.1).log[u.2 - 1]?).getD []

def Recorded (V : R → KeyView T R) (received : Finset (R × ℕ)) : Prop :=
  ∀ u ∈ received, 1 ≤ u.2 ∧ u.2 ≤ (V u.1).log.length

structure ViewsInv (V : R → KeyView T R) (sent : ORSetCore T R → Finset (R × ℕ) → Prop) : Prop where
  history : HistoryInv (viewHistory V)
  sound : ∀ q, Sound (viewHistory V) (Reached V (V q).received) (V q).set
  own : ∀ q, (V q).set.versionVector.versionAt q = addCount (viewHistory V q)
  tracked : ∀ q r, (V q).tracked r ≤ (V r).log.length ∧
    addCount ((V r).log.take ((V q).tracked r)).flatten ≤ (V q).set.versionVector.versionAt r
  recorded : ∀ q, Recorded V (V q).received
  sent : ∀ s received, sent s received →
    Sound (viewHistory V) (Reached V received) s ∧ Recorded V received

namespace ViewsInv

variable {V : R → KeyView T R} {sent : ORSetCore T R → Finset (R × ℕ) → Prop} {q : R}
  {v : KeyView T R} {received : Finset (R × ℕ)} {op : ORSetRemoveDelta T R}

lemma reached_mem_history (h : Reached V received op) : ∃ r, remove op ∈ viewHistory V r := by
  obtain ⟨u, -, hop⟩ := h
  refine ⟨u.1, ?_⟩
  cases he : (V u.1).log[u.2 - 1]? with
  | none => rw [he] at hop; cases hop
  | some ops =>
    rw [he] at hop
    exact mem_flatten.mpr ⟨ops, mem_of_getElem? he, hop⟩

lemma change (h : ViewsInv V sent) (hlog : v.log = (V q).log)
    (hs : Sound (viewHistory V) (Reached V v.received) v.set)
    (hle : ∀ r, (V q).set.versionVector.versionAt r ≤ v.set.versionVector.versionAt r)
    (htr : ∀ r, v.tracked r ≤ (V r).log.length ∧
      addCount ((V r).log.take (v.tracked r)).flatten ≤ v.set.versionVector.versionAt r)
    (hrec : Recorded V v.received) : ViewsInv (update V q v) sent := by
  have hl : ∀ r, (update V q v r).log = (V r).log :=
    (forall_update_iff V fun r w => w.log = (V r).log).mpr ⟨hlog, fun _ _ => rfl⟩
  have hh : viewHistory (update V q v) = viewHistory V :=
    funext fun r => congrArg flatten (hl r)
  have hre : ∀ received, Reached (update V q v) received = Reached V received := by
    intro received
    funext op
    unfold Reached
    simp only [hl]
  have hrc : ∀ received, Recorded (update V q v) received = Recorded V received := by
    intro received
    unfold Recorded
    simp only [hl]
  constructor
  · rw [hh]
    exact h.history
  · simp only [hh, hre]
    exact (forall_update_iff V fun _ w => Sound (viewHistory V) (Reached V w.received)
    w.set).mpr ⟨hs, fun r _ => h.sound r⟩
  · rw [hh]
    refine (forall_update_iff V fun r w => w.set.versionVector.versionAt r =
      addCount (viewHistory V r)).mpr ⟨?_, fun r _ => h.own r⟩
    exact le_antisymm (hs.bounded q) ((h.own q).symm.le.trans (hle q))
  · simp only [hl]
    exact (forall_update_iff V fun _ w => ∀ r', w.tracked r' ≤ (V r').log.length ∧
      addCount ((V r').log.take (w.tracked r')).flatten ≤ w.set.versionVector.versionAt r').mpr
      ⟨htr, fun r _ => h.tracked r⟩
  · simp only [hrc]
    exact (forall_update_iff V fun _ w => Recorded V w.received).mpr ⟨hrec, fun r _ => h.recorded r⟩
  · intro s received hsent
    rw [hh, hre, hrc]
    exact h.sent s received hsent

section Append

variable {new : List (SetOp T R)} (hlog : v.log = (V q).log ++ [new])

include hlog

lemma viewHistory_append : viewHistory (update V q v) = (viewHistory V).extend q new := by
  funext r
  by_cases hr : r = q
  · subst hr
    rw [viewHistory, update_self, hlog, History.extend, update_self,
      flatten_append, flatten_singleton, viewHistory]
  · rw [viewHistory, update_of_ne hr, History.extend, update_of_ne hr, viewHistory]

lemma getElem?_append {r : R} {i : ℕ} (hi : i < (V r).log.length) :
    (update V q v r).log[i]? = (V r).log[i]? := by
  by_cases hr : r = q
  · subst hr
    rw [update_self, hlog, getElem?_append_left hi]
  · rw [update_of_ne hr]

lemma length_append (r : R) : (V r).log.length ≤ (update V q v r).log.length := by
  refine (forall_update_iff V fun r w => (V r).log.length ≤ w.log.length).mpr
    ⟨?_, fun _ _ => le_rfl⟩ r
  rw [hlog, List.length_append]
  exact Nat.le_add_right _ _

lemma reached_append (hrec : Recorded V received) (h : Reached (update V q v) received op) :
    Reached V received op := by
  obtain ⟨u, hu, hop⟩ := h
  have := hrec u hu
  rw [getElem?_append hlog (by omega)] at hop
  exact ⟨u, hu, hop⟩

lemma recorded_append (hrec : Recorded V received) :
    Recorded (update V q v) received := fun u hu =>
  ⟨(hrec u hu).1, (hrec u hu).2.trans (length_append hlog u.1)⟩

lemma take_append {r : R} {n : ℕ} (hn : n ≤ (V r).log.length) :
    (update V q v r).log.take n = (V r).log.take n := by
  by_cases hr : r = q
  · subst hr
    rw [update_self, hlog, take_append_of_le_length hn]
  · rw [update_of_ne hr]

lemma append (h : ViewsInv V sent) (hH : HistoryInv ((viewHistory V).extend q new))
    (hnum : Numbered q (addCount (viewHistory V q)) new)
    (hs : Sound ((viewHistory V).extend q new)
      (fun op => Reached V (V q).received op ∨ remove op ∈ new) v.set)
    (hown : v.set.versionVector.versionAt q = addCount ((viewHistory V).extend q new q))
    (hle : ∀ r, (V q).set.versionVector.versionAt r ≤ v.set.versionVector.versionAt r)
    (htr : v.tracked = (V q).tracked)
    (hrec : v.received = insert (q, (V q).log.length + 1) (V q).received) :
    ViewsInv (update V q v) sent := by
  have hext : ∀ {s : ORSetCore T R} {received : Finset (R × ℕ)}, Recorded V received →
      Sound (viewHistory V) (Reached V received) s →
      Sound ((viewHistory V).extend q new) (Reached (update V q v) received) s := by
    intro s received hr hs
    exact (hs.extend h.history hnum fun op hop => reached_mem_history hop).weaken
      fun op hop => reached_append hlog hr hop
  constructor
  · rw [viewHistory_append hlog]
    exact hH
  · intro r
    rw [viewHistory_append hlog]
    by_cases hr : r = q
    · subst hr
      rw [update_self]
      refine hs.weaken fun op hop => ?_
      obtain ⟨u, hu, hop⟩ := hop
      rw [hrec] at hu
      rcases Finset.mem_insert.mp hu with rfl | hu
      · -- the version just recorded
        rw [update_self, hlog, Nat.add_sub_cancel, getElem?_concat_length] at hop
        exact .inr hop
      · exact .inl (reached_append hlog (h.recorded r) ⟨u, hu, hop⟩)
    · rw [update_of_ne hr]
      exact hext (h.recorded r) (h.sound r)
  · rw [viewHistory_append hlog]
    refine (forall_update_iff V fun r w => w.set.versionVector.versionAt r =
      addCount ((viewHistory V).extend q new r)).mpr ⟨hown, fun r hr => ?_⟩
    rw [h.own r, addCount_extend, if_neg hr, Nat.add_zero]
  · intro r r'
    have hold := h.tracked r r'
    obtain ⟨htr', hv⟩ := (forall_update_iff V fun r w => w.tracked = (V r).tracked ∧
      (V r).set.versionVector.versionAt r' ≤ w.set.versionVector.versionAt r').mpr
      ⟨⟨htr, hle r'⟩, fun _ _ => ⟨rfl, le_rfl⟩⟩ r
    rw [htr', take_append hlog hold.1]
    exact ⟨hold.1.trans (length_append hlog r'), hold.2.trans hv⟩
  · intro r
    by_cases hr : r = q
    · subst hr
      intro u hu
      rw [update_self, hrec] at hu
      rcases Finset.mem_insert.mp hu with rfl | hu
      · refine ⟨by simp, ?_⟩
        rw [update_self, hlog, List.length_append, List.length_singleton]
      · exact recorded_append hlog (h.recorded r) u hu
    · rw [update_of_ne hr]
      exact recorded_append hlog (h.recorded r)
  · intro s received hsent
    obtain ⟨h1, h2⟩ := h.sent s received hsent
    rw [viewHistory_append hlog]
    exact ⟨hext h2 h1, recorded_append hlog h2⟩

end Append

end ViewsInv

/-! ## Local updates -/

section

variable {q : R}

lemma extend_nil (H : History T R) : H.extend q [] = H := by
  rw [History.extend, append_nil, update_eq_self]

lemma extend_extend (H : History T R) (a b : List (SetOp T R)) :
    (H.extend q a).extend q b = H.extend q (a ++ b) := by
  rw [History.extend, History.extend, History.extend, update_self, update_idem, append_assoc]

/-- Local operations lead from `s` to `s'`; `new` are the operations they append to the history. -/
structure LocalRun (q : R) (H : History T R) (P : ORSetRemoveDelta T R → Prop) (s s' : ORSet T R)
    (new : List (SetOp T R)) : Prop where
  delta : deltaOps s'.delta = deltaOps s.delta ++ new
  numbered : Numbered q (addCount (H q)) new
  history : HistoryInv (H.extend q new)
  sound : Sound (H.extend q new) (fun op => P op ∨ SetOp.remove op ∈ new) s'.toORSetCore
  own : s'.versionVector.versionAt q = addCount (H.extend q new q)
  mono : ∀ r, s.versionVector.versionAt r ≤ s'.versionVector.versionAt r

variable {H : History T R} {P : ORSetRemoveDelta T R → Prop} {s : ORSet T R}

namespace LocalRun

lemma refl (hH : HistoryInv H) (hs : Sound H P s.toORSetCore)
    (hq : s.versionVector.versionAt q = addCount (H q)) : LocalRun q H P s s [] where
  delta := (append_nil _).symm
  numbered := trivial
  history := by rw [extend_nil]; exact hH
  sound := by
    rw [extend_nil]
    exact hs.weaken fun op hop => hop.resolve_right (by simp)
  own := by rw [extend_nil]; exact hq
  mono _ := le_refl _

lemma trans {s' s'' : ORSet T R} {a b : List (SetOp T R)} (h1 : LocalRun q H P s s' a)
    (h2 : LocalRun q (H.extend q a) (fun op => P op ∨ remove op ∈ a) s' s'' b) :
    LocalRun q H P s s'' (a ++ b) where
  delta := by rw [h2.delta, h1.delta, append_assoc]
  numbered := by
    refine numbered_append.mpr ⟨h1.numbered, ?_⟩
    have := h2.numbered
    rwa [addCount_extend, if_pos rfl] at this
  history := by rw [← extend_extend]; exact h2.history
  sound := by
    rw [← extend_extend]
    refine h2.sound.weaken fun op hop => ?_
    rw [mem_append, ← or_assoc] at hop
    exact hop
  own := by rw [← extend_extend]; exact h2.own
  mono r := (h1.mono r).trans (h2.mono r)

lemma update (hH : HistoryInv H) (hP : ∀ op, P op → ∃ r, remove op ∈ H r)
    (hs : Sound H P s.toORSetCore) (hq : s.versionVector.versionAt q = addCount (H q))
    (hmax : s.versionVector.versionAt q < Cluster.u64Max) (u : SetUpdate T) :
    ∃ new, LocalRun q H P s (s.update q u) new ∧
      (s.update q u).versionVector.versionAt q ≤ s.versionVector.versionAt q + 1 := by
  cases u with
  | add x =>
    have hv : ∀ r, (s.toORSetCore.add q x).versionVector.versionAt r =
        if r = q then s.versionVector.versionAt q + 1 else s.versionVector.versionAt r := by
      intro r
      rw [ORSetCore.add, versionAt_increment, min_eq_left (by omega)]
    have hdot : one q ((s.versionVector.increment q).versionAt q) =
        one q (s.versionVector.versionAt q + 1) := by
      rw [versionAt_increment, if_pos rfl, min_eq_left (by omega)]
    have hnum : Numbered q (addCount (H q))
        [add (single x q (s.versionVector.versionAt q + 1))] := by
      rw [← hq]
      exact ⟨⟨x, rfl⟩, trivial⟩
    refine ⟨[.add (single x q (s.versionVector.versionAt q + 1))],
      ⟨?_, hnum, hH.extend hnum (by simp), ?_, ?_, fun r => ?_⟩, ?_⟩
    · rw [ORSet.update, ORSet.add]
      rw [deltaOps_mergeOptionalDelta, hdot]
      rfl
    · refine (hs.add hH hP hq hmax x).weaken fun op hop => hop.resolve_right (by simp)
    · rw [addCount_extend, if_pos rfl, ← hq]
      exact (hv q).trans (by rw [if_pos rfl]; rfl)
    · refine le_trans ?_ (hv r).symm.le
      split_ifs with hr
      · subst hr
        omega
      · exact le_refl _
    · exact (hv q).le.trans (by rw [if_pos rfl])
  | remove x =>
    by_cases hx : s.contains x = true
    · have he : s.update q (.remove x) = ⟨s.toORSetCore.remove x,
          some (mergeOptionalDelta s.delta
            (.remove ⟨x, s.versionVector, .one q (s.versionVector.versionAt q)⟩))⟩ := by
        rw [ORSet.update, ORSet.remove, if_pos hx]
      set op : ORSetRemoveDelta T R := ⟨x, s.versionVector, .one q (s.versionVector.versionAt q)⟩
        with hop
      have hnum : Numbered q (addCount (H q)) [remove op] := by
        refine ⟨?_, trivial⟩
        rw [← hq]
      rw [he]
      refine ⟨[.remove op], ⟨deltaOps_mergeOptionalDelta _ _, hnum, ?_, ?_, ?_, fun r => le_refl _⟩,
        Nat.le_succ _⟩
      · refine hH.extend hnum fun o ho r => ?_
        obtain rfl : o = op := by simpa using ho
        exact hs.bounded r
      · refine (hs.remove hH hP op rfl (by rw [← hq])).weaken fun o ho => ?_
        exact ho.imp_right fun ho => by simpa using ho
      · rw [addCount_extend, if_pos rfl, ← hq]
        rfl
    · have he : s.update q (.remove x) = s := by rw [ORSet.update, ORSet.remove, if_neg hx]
      rw [he]
      exact ⟨[], .refl hH hs hq, Nat.le_succ _⟩

/-- **The operations of one local update.** -/
theorem updates (ops : List (SetUpdate T)) (hH : HistoryInv H)
    (hP : ∀ op, P op → ∃ r, remove op ∈ H r) (hs : Sound H P s.toORSetCore)
    (hq : s.versionVector.versionAt q = addCount (H q))
    (hmax : s.versionVector.versionAt q + ops.length ≤ Cluster.u64Max) :
    ∃ new, LocalRun q H P s (ops.foldl (ORSet.update q) s) new := by
  induction ops generalizing H P s with
  | nil => exact ⟨[], .refl hH hs hq⟩
  | cons u ops ih =>
    rw [length_cons] at hmax
    obtain ⟨a, h1, hle⟩ := LocalRun.update hH hP hs hq (by omega) u
    have hP' : ∀ op, P op ∨ remove op ∈ a → ∃ r, remove op ∈ H.extend q a r := by
      rintro op (hop | hop)
      · obtain ⟨r, hr⟩ := hP op hop
        exact ⟨r, mem_extend.mpr (.inl hr)⟩
      · exact ⟨q, mem_extend.mpr (.inr ⟨rfl, hop⟩)⟩
    obtain ⟨b, h2⟩ := ih h1.history hP' h1.sound h1.own (by omega)
    exact ⟨a ++ b, h1.trans h2⟩

end LocalRun

end

end Kairo.DistributedData
