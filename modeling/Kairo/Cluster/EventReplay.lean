import Kairo.Cluster.EventDiff

/-!
# Replaying cluster events

A subscriber that starts from a snapshot and folds the published events keeps a `ClusterView`.  The
events about different nodes do not interfere, so the view is followed one node at a time (`row`): each
part of a diff has at most one event about a node, and `row_diff` says what they add up to.
`Faithful` is the exact condition on two consecutive gossips under which the view stays exact.
-/

namespace Kairo.Cluster

open Option hiding mem_map mem_toFinset
open Kairo.Lib ClusterEvents Gossip List FinMap

/-- What a subscriber knows about the cluster. -/
structure ClusterView where
  members : FinMap UniqueAddress Member
  unreachable : Finset UniqueAddress
  deriving DecidableEq

namespace ClusterView

def ofState (s : CurrentClusterState) : ClusterView where
  members := FinMap.tabulate (s.members.map (·.uniqueAddress)).toFinset fun x =>
    s.members.find? (·.uniqueAddress = x)
  unreachable := (s.unreachable.map (·.uniqueAddress)).toFinset

def apply (v : ClusterView) : ClusterEvent → ClusterView
  | .member (.removed m _) => ⟨v.members.erase m.uniqueAddress, v.unreachable.erase m.uniqueAddress⟩
  | .member e => { v with members := v.members.insert e.node e.member }
  | .reachability (.unreachable m) => { v with unreachable := insert m.uniqueAddress v.unreachable }
  | .reachability (.reachable m) => { v with unreachable := v.unreachable.erase m.uniqueAddress }
  | _ => v

def applyAll (v : ClusterView) (es : List ClusterEvent) : ClusterView := es.foldl apply v

/-- Follows the events between consecutive gossips, the first of which is `old`. -/
def follow (self : UniqueAddress) (v : ClusterView) (old : Gossip) : List Gossip → ClusterView
  | [] => v
  | new :: gs => follow self (v.applyAll (diff old new self)) new gs

/-- The view of a subscriber that gets the snapshot of `g` and then the events of the gossips `gs`. -/
def replay (self : UniqueAddress) (g : Gossip) (gs : List Gossip) : ClusterView :=
  follow self (ofState (.fromGossip g self)) g gs

/-! ## Exact views -/

def fact (m : Member) : MemberStatus × Option ℕ := (m.status, m.upNumber)

/-- The view has the members of the gossip with their status and up number, and exactly its members
other than `owner` that are unreachable or terminated. -/
structure Exact (owner : UniqueAddress) (g : Gossip) (v : ClusterView) : Prop where
  members : ∀ x, (v.members.lookup x).map fact = (g.member x).map fact
  unreachable : ∀ x, x ∈ v.unreachable ↔
    x ≠ owner ∧ x ∈ g.addresses ∧ x ∈ g.reachability.allUnreachableOrTerminated

/-- **The exact condition on two consecutive gossips**: a member with status Removed was in the old
gossip with the same status and up number, a member that stays unreachable was a member before, and a
member that becomes reachable was not terminated. -/
structure Faithful (owner : UniqueAddress) (old new : Gossip) : Prop where
  removed : ∀ m ∈ new.members, m.status = .removed →
    (old.member m.uniqueAddress).map fact = some (fact m)
  known : ∀ x ∈ new.addresses, x ≠ owner → x ∈ new.reachability.allUnreachableOrTerminated →
    x ∈ old.reachability.allUnreachableOrTerminated → x ∈ old.addresses
  cleared : ∀ x ∈ new.addresses, x ≠ owner → x ∉ new.reachability.allUnreachableOrTerminated →
    x ∈ old.addresses → old.reachability.statusOf x ≠ .terminated

instance (self : UniqueAddress) (old new : Gossip) : Decidable (Faithful self old new) :=
  decidable_of_iff
    ((∀ m ∈ new.members, m.status = .removed →
        (old.member m.uniqueAddress).map fact = some (fact m)) ∧
      ∀ x ∈ new.addresses, x ≠ self →
        (x ∈ new.reachability.allUnreachableOrTerminated →
          x ∈ old.reachability.allUnreachableOrTerminated → x ∈ old.addresses) ∧
        (x ∉ new.reachability.allUnreachableOrTerminated → x ∈ old.addresses →
          old.reachability.statusOf x ≠ .terminated))
    ⟨fun h => ⟨h.1, fun x hx hs => (h.2 x hx hs).1, fun x hx hs => (h.2 x hx hs).2⟩,
      fun h => ⟨h.removed, fun x hx hs => ⟨h.known x hx hs, h.cleared x hx hs⟩⟩⟩

/-! ## One node of a view -/

/-- What the view says about one node. -/
def row (v : ClusterView) (x : UniqueAddress) : Option Member × Bool :=
  (v.members.lookup x, decide (x ∈ v.unreachable))

/-- What an event does to the row of `x`. -/
def rowStep (x : UniqueAddress) (r : Option Member × Bool) : ClusterEvent → Option Member × Bool
  | .member (.removed m _) => if m.uniqueAddress = x then (none, false) else r
  | .member e => if e.node = x then (some e.member, r.2) else r
  | .reachability (.unreachable m) => if m.uniqueAddress = x then (r.1, true) else r
  | .reachability (.reachable m) => if m.uniqueAddress = x then (r.1, false) else r
  | _ => r

lemma row_insert (v : ClusterView) (x : UniqueAddress) (n : UniqueAddress) (m : Member) :
    row { v with members := v.members.insert n m } x =
      if n = x then (some m, (v.row x).2) else v.row x := by
  unfold row
  rw [lookup_insert]
  by_cases h : n = x
  · rw [if_pos h, if_pos h.symm]
  · rw [if_neg h, if_neg (Ne.symm h)]

lemma row_apply (v : ClusterView) (e : ClusterEvent) (x : UniqueAddress) :
    (v.apply e).row x = rowStep x (v.row x) e := by
  rcases e with e | e | _ | _ | _ | _ | _
  · rcases e with m | m | m | m | m | m | ⟨m, s⟩
    case removed =>
      show (Finmap.lookup x (Finmap.erase _ _), decide (x ∈ Finset.erase _ _)) = ite _ _ _
      rw [lookup_erase]
      by_cases h : m.uniqueAddress = x
      · rw [if_pos h, if_pos h.symm, decide_eq_false (by simp [h])]
      · rw [if_neg h, if_neg (Ne.symm h)]
        simp [row, Ne.symm h]
    all_goals exact row_insert v x _ _
  · rcases e with m | m
    · show (Finmap.lookup x v.members, decide (x ∈ insert _ _)) = ite _ _ _
      by_cases h : m.uniqueAddress = x
      · simp [h, row]
      · simp [h, Ne.symm h, row]
    · show (Finmap.lookup x v.members, decide (x ∈ Finset.erase _ _)) = ite _ _ _
      by_cases h : m.uniqueAddress = x
      · simp [h, row]
      · simp [h, Ne.symm h, row]
  all_goals rfl

lemma row_applyAll (v : ClusterView) (es : List ClusterEvent) (x : UniqueAddress) :
    (v.applyAll es).row x = es.foldl (rowStep x) (v.row x) := by
  induction es generalizing v with
  | nil => rfl
  | cons e es ih =>
    show ((v.apply e).applyAll es).row x = _
    rw [ih, row_apply]
    rfl

lemma exact_iff_row {self : UniqueAddress} {g : Gossip} {v : ClusterView} :
    Exact self g v ↔ ∀ x, (v.row x).1.map fact = (g.member x).map fact ∧
      ((v.row x).2 = true ↔
        x ≠ self ∧ x ∈ g.addresses ∧ x ∈ g.reachability.allUnreachableOrTerminated) := by
  constructor
  · intro h x
    exact ⟨h.members x, by rw [row, decide_eq_true_eq]; exact h.unreachable x⟩
  · intro h
    exact ⟨fun x => (h x).1, fun x => by have := (h x).2; rwa [row, decide_eq_true_eq] at this⟩

/-! ## Folding the events about one node -/

/-- Each event of the list does nothing or what `g` does, the latter exactly if `c`. -/
lemma foldl_eq_ite {α β : Type*} {f : β → α → β} {g : β → β} {c : Prop} [Decidable c] {es : List α}
    (hg : ∀ r, g (g r) = g r) (hc : c → ∃ e ∈ es, ∀ r, f r e = g r)
    (h : ∀ e ∈ es, (∀ r, f r e = r) ∨ c ∧ ∀ r, f r e = g r) (r : β) :
    es.foldl f r = if c then g r else r := by
  have part : ∀ l ⊆ es, ∀ r, l.foldl f r = r ∨ c ∧ l.foldl f r = g r := by
    intro l hl r
    refine foldlRecOn (motive := fun b => b = r ∨ c ∧ b = g r) l f (.inl rfl) fun b hb e he => ?_
    rcases h e (hl he) with hid | ⟨hc, hge⟩
    · rwa [hid]
    · rw [hge]
      rcases hb with rfl | ⟨_, rfl⟩
      · exact .inr ⟨hc, rfl⟩
      · exact .inr ⟨hc, hg r⟩
  split_ifs with hc'
  · obtain ⟨e, he, hge⟩ := hc hc'
    obtain ⟨before, after, rfl⟩ := append_of_mem he
    have hbefore : g (before.foldl f r) = g r := by
      rcases part before (by simp) r with h | h
      · rw [h]
      · rw [h.2, hg]
    rw [foldl_append, foldl_cons, hge, hbefore]
    rcases part after (by simp) (g r) with h | h
    · exact h
    · rw [h.2, hg]
  · exact (part es (Subset.refl _) r).resolve_right fun h => hc' h.1

lemma changedEvent_eq_some {old : Gossip} {m : Member} {e : ClusterEvent}
    (h : changedEvent old m = some e) :
    ∃ e', memberEventForStatus m = some e' ∧ e = .member e' := by
  unfold changedEvent at h
  split at h
  · obtain ⟨e', he, h⟩ := map_eq_some_iff.mp h
    exact ⟨e', he, h.symm⟩
  · split_ifs at h
    obtain ⟨e', he, h⟩ := map_eq_some_iff.mp h
    exact ⟨e', he, h.symm⟩

lemma rowStep_changedEvent {old : Gossip} {m : Member} {e : ClusterEvent}
    (h : changedEvent old m = some e) (x : UniqueAddress) (r : Option Member × Bool) :
    rowStep x r e = if m.uniqueAddress = x then (some m, r.2) else r := by
  obtain ⟨e', he, rfl⟩ := changedEvent_eq_some h
  unfold memberEventForStatus at he
  cases hs : m.status <;> rw [hs] at he <;> cases he <;> rfl

section Diff

variable {old new : Gossip} {self x : UniqueAddress} (hn : new.Normalized) {v : ClusterView}

variable (r : Option Member × Bool)

lemma foldl_removed :
    (sortByNodeKey (old.members.filterMap (removedEvent new))).foldl (rowStep x) r =
      if x ∈ old.addresses ∧ x ∉ new.addresses then (none, false) else r := by
  have about : ∀ e, e ∈ sortByNodeKey (old.members.filterMap (removedEvent new)) ↔
      ∃ m ∈ old.members, m.uniqueAddress ∉ new.addresses ∧
        .member (.removed (m.withStatus .removed) m.status) = e := fun e => by
    simp [mem_sortByNodeKey, removedEvent, hasMember, member_isSome_iff]
  refine foldl_eq_ite (g := fun _ => (none, false)) (fun _ => rfl) (fun hx => ?_) (fun e he => ?_) r
  · obtain ⟨m, hm, rfl⟩ := mem_map.mp hx.1
    exact ⟨_, (about _).mpr ⟨m, hm, hx.2, rfl⟩, fun r => if_pos rfl⟩
  · obtain ⟨m, hm, hnot, rfl⟩ := (about e).mp he
    by_cases hmx : m.uniqueAddress = x
    · subst hmx
      exact .inr ⟨⟨mem_map_of_mem hm, hnot⟩, fun r => if_pos rfl⟩
    · exact .inl fun r => if_neg hmx

include hn

lemma foldl_changed :
    (sortByNodeKey (new.members.filterMap (changedEvent old))).foldl (rowStep x) r =
      match (new.member x).bind fun m => (changedEvent old m).map fun _ => m with
      | some m => (some m, r.2)
      | none => r := by
  have about : ∀ e, e ∈ sortByNodeKey (new.members.filterMap (changedEvent old)) ↔
      ∃ m ∈ new.members, changedEvent old m = some e := fun e =>
    mem_sortByNodeKey.trans mem_filterMap
  -- an event about another node does nothing
  have other : ∀ e ∈ sortByNodeKey (new.members.filterMap (changedEvent old)),
      (∀ r, rowStep x r e = r) ∨ ∃ m, new.member x = some m ∧ changedEvent old m = some e := by
    intro e he
    obtain ⟨m, hm, hme⟩ := (about e).mp he
    by_cases hmx : m.uniqueAddress = x
    · exact .inr ⟨m, hmx ▸ member_of_mem hn hm, hme⟩
    · exact .inl fun r => (rowStep_changedEvent hme x r).trans (if_neg hmx)
  split
  · rename_i m hm
    obtain ⟨m', hm', hc⟩ := bind_eq_some_iff.mp hm
    obtain ⟨e, he, rfl⟩ := map_eq_some_iff.mp hc
    obtain ⟨hmem, hx⟩ := mem_of_member hm'
    have hrow : ∀ {e}, changedEvent old m' = some e → ∀ r, rowStep x r e = (some m', r.2) :=
      fun he r => (rowStep_changedEvent he x r).trans (if_pos hx)
    refine (foldl_eq_ite (g := fun r => (some m', r.2)) (c := True) (fun _ => rfl)
      (fun _ => ⟨e, (about e).mpr ⟨m', hmem, he⟩, hrow he⟩) (fun e he => ?_) r).trans (if_pos trivial)
    refine (other e he).imp_right ?_
    rintro ⟨k, hk, hke⟩
    rw [hm'] at hk
    cases hk
    exact ⟨trivial, hrow hke⟩
  · rename_i hnone
    refine (foldl_eq_ite (g := id) (c := False) (fun _ => rfl) nofun (fun e he => ?_) r).trans
      (if_neg not_false)
    refine (other e he).imp_right ?_
    rintro ⟨m, hm, hme⟩
    rw [hm, bind_some, hme] at hnone
    cases hnone

omit hn

lemma foldl_reachability {nodes : List UniqueAddress} {f : Member → ReachabilityEvent} {b : Bool}
    (hf : ∀ m r, rowStep x r (.reachability (f m)) = if m.uniqueAddress = x then (r.1, b) else r)
    (r : Option Member × Bool) :
    (sortByNodeKey (nodes.filterMap fun n =>
        (new.member n).map fun m => .reachability (f m))).foldl (rowStep x) r =
      if x ∈ nodes ∧ x ∈ new.addresses then (r.1, b) else r := by
  have about : ∀ e, e ∈ sortByNodeKey (nodes.filterMap fun n =>
      (new.member n).map fun m => ClusterEvent.reachability (f m)) ↔
      ∃ n ∈ nodes, ∃ m, new.member n = some m ∧ .reachability (f m) = e := fun e => by
    simp only [mem_sortByNodeKey, mem_filterMap, map_eq_some_iff]
  refine foldl_eq_ite (g := fun r => (r.1, b)) (fun _ => rfl) (fun hx => ?_) (fun e he => ?_) r
  · obtain ⟨m, hm⟩ := isSome_iff_exists.mp (member_isSome_iff.mpr hx.2)
    exact ⟨_, (about _).mpr ⟨x, hx.1, m, hm, rfl⟩,
      fun r => (hf m r).trans (if_pos (mem_of_member hm).2)⟩
  · obtain ⟨n, hnodes, m, hm, rfl⟩ := (about e).mp he
    obtain ⟨hmem, rfl⟩ := mem_of_member hm
    by_cases hmx : m.uniqueAddress = x
    · subst hmx
      exact .inr ⟨⟨hnodes, mem_map_of_mem hmem⟩, fun r => (hf m r).trans (if_pos rfl)⟩
    · exact .inl fun r => (hf m r).trans (if_neg hmx)

/-- Leaders, roles, the seen table and the tables themselves are not part of a row. -/
lemma foldl_other :
    (diffLeader old new self ++ diffRoleLeaders old new self ++ diffSeen old new self ++
      diffReachability old new).foldl (rowStep x) r = r := by
  refine foldlRecOn (motive := (· = r)) _ (rowStep x) rfl fun b hb e he => ?_
  rw [← hb]
  simp only [mem_append, diffLeader, diffRoleLeaders, diffSeen, diffReachability,
    mem_filterMap] at he
  rcases he with ((he | ⟨role, -, he⟩) | he) | he
  · split_ifs at he
    · cases he
    · rw [mem_singleton.mp he]
      rfl
  · split_ifs at he
    cases he
    rfl
  all_goals
    split_ifs at he
    · cases he
    · rw [mem_singleton.mp he]
      rfl

include hn

/-- **One node along a diff**: the member is the changed one, the old one or gone, and the node is
unmarked, marked or left as it was. -/
theorem row_diff (v : ClusterView) :
    (v.applyAll (diff old new self)).row x =
      (match (new.member x).bind fun m => (changedEvent old m).map fun _ => m with
        | some m => some m
        | none => if x ∈ old.addresses ∧ x ∉ new.addresses then none else (v.row x).1,
      if x ∈ new.addresses ∧ x ≠ self ∧ x ∈ old.reachability.allUnreachableOrTerminated ∧
          old.reachability.statusOf x ≠ .terminated ∧
          x ∉ new.reachability.allUnreachableOrTerminated then false
      else if x ∈ new.addresses ∧ x ≠ self ∧ x ∈ new.reachability.allUnreachableOrTerminated ∧
          x ∉ old.reachability.allUnreachableOrTerminated then true
      else if x ∈ old.addresses ∧ x ∉ new.addresses then false else (v.row x).2) := by
  have tomb : (diffTombstones old new).foldl (rowStep x) (v.row x) = v.row x := by
    unfold diffTombstones
    split_ifs <;> rfl
  rw [row_applyAll, diff, append_assoc, append_assoc, append_assoc,
    foldl_append, ← append_assoc, ← append_assoc, foldl_other]
  rw [foldl_append, foldl_append, foldl_append, tomb, diffMemberEvents, foldl_append,
    foldl_removed, foldl_changed hn, diffUnreachable, diffReachable,
    foldl_reachability (fun _ _ => rfl), foldl_reachability (fun _ _ => rfl)]
  have marked : (x ∈ new.reachability.negativeSubjects.filter (fun n =>
        decide (n ≠ self ∧ n ∉ old.reachability.allUnreachableOrTerminated)) ∧ x ∈ new.addresses) ↔
      x ∈ new.addresses ∧ x ≠ self ∧ x ∈ new.reachability.allUnreachableOrTerminated ∧
        x ∉ old.reachability.allUnreachableOrTerminated := by
    rw [mem_filter, Reachability.mem_negativeSubjects, decide_eq_true_eq]
    tauto
  have unmarked : (x ∈ old.reachability.allUnreachable.filter (fun n =>
        decide (n ≠ self ∧ new.reachability.statusOf n = .reachable)) ∧ x ∈ new.addresses) ↔
      x ∈ new.addresses ∧ x ≠ self ∧ x ∈ old.reachability.allUnreachableOrTerminated ∧
        old.reachability.statusOf x ≠ .terminated ∧
        x ∉ new.reachability.allUnreachableOrTerminated := by
    rw [mem_filter, Reachability.mem_allUnreachable, decide_eq_true_eq,
      Reachability.statusOf_eq_reachable_iff]
    tauto
  simp only [marked, unmarked]
  cases (new.member x).bind fun m => (changedEvent old m).map fun _ => m with
  | none => split_ifs <;> rfl
  | some m => split_ifs <;> rfl

/-! ## The condition -/

/-- The members come out right exactly when no new fact is about a member with status Removed. -/
lemma members_diff_iff (hv : (v.row x).1.map fact = (old.member x).map fact) :
    ((v.applyAll (diff old new self)).row x).1.map fact = (new.member x).map fact ↔
      ∀ m, new.member x = some m → m.status = .removed →
        (old.member x).map fact = some (fact m) := by
  rw [row_diff hn]
  dsimp only
  cases hx : new.member x with
  | none =>
    have hnew : x ∉ new.addresses := by
      rw [← member_isSome_iff, hx]
      simp
    refine iff_of_true ?_ (by rintro m ⟨⟩)
    rw [bind_none]
    split_ifs with hold
    · rfl
    · have : old.member x = none := by
        rw [← not_isSome_iff_eq_none, member_isSome_iff]
        exact fun h => hold ⟨h, hnew⟩
      rw [hv, this]
  | some m =>
    have hnew : x ∈ new.addresses := by
      rw [← member_isSome_iff, hx]
      rfl
    have hmx := (mem_of_member hx).2
    rw [bind_some]
    cases hc : changedEvent old m with
    | some e =>
      refine ⟨fun _ m' hm' hr => ?_, fun _ => rfl⟩
      cases hm'
      obtain ⟨e', he', -⟩ := changedEvent_eq_some hc
      rw [memberEventForStatus, hr] at he'
      cases he'
    | none =>
      show Option.map fact (if _ then _ else _) = _ ↔ _
      rw [if_neg (fun h => h.2 hnew), hv]
      refine ⟨fun h m' hm' _ => by cases hm'; exact h, fun h => ?_⟩
      unfold changedEvent at hc
      rw [hmx] at hc
      -- no event: the facts are the same, or the member has status Removed
      have removed_of : (memberEventForStatus m).map ClusterEvent.member = none →
          m.status = .removed := by
        intro hn
        unfold memberEventForStatus at hn
        cases hs : m.status <;> rw [hs] at hn <;> first | rfl | cases hn
      cases ho : old.member x with
      | none =>
        rw [ho] at hc h
        exact h m rfl (removed_of hc)
      | some o =>
        rw [ho] at hc h
        dsimp only at hc
        split_ifs at hc with hd
        · exact h m rfl (removed_of hc)
        · rw [not_or, not_not, not_not] at hd
          simp [fact, hd.1, hd.2]

/-- The unreachable nodes come out right exactly when a node that stays unreachable was a member and
one that becomes reachable was not terminated. -/
lemma unreachable_diff_iff (hv : (v.row x).2 = true ↔
      x ≠ self ∧ x ∈ old.addresses ∧ x ∈ old.reachability.allUnreachableOrTerminated) :
    (((v.applyAll (diff old new self)).row x).2 = true ↔
        x ≠ self ∧ x ∈ new.addresses ∧ x ∈ new.reachability.allUnreachableOrTerminated) ↔
      (x ∈ new.addresses → x ≠ self → (x ∈ new.reachability.allUnreachableOrTerminated →
          x ∈ old.reachability.allUnreachableOrTerminated → x ∈ old.addresses) ∧
        (x ∉ new.reachability.allUnreachableOrTerminated → x ∈ old.addresses →
          old.reachability.statusOf x ≠ .terminated)) := by
  have hterm : old.reachability.statusOf x = .terminated →
      x ∈ old.reachability.allUnreachableOrTerminated := by
    intro h
    by_contra hx
    rw [← Reachability.statusOf_eq_reachable_iff, h] at hx
    cases hx
  rw [row_diff hn]
  dsimp only
  by_cases hnew : x ∈ new.addresses
  · by_cases hs : x = self
    · simp only [hs, ne_eq, not_true_eq_false, false_and, and_false, if_false, iff_false,
        IsEmpty.forall_iff, implies_true, iff_true] at hv ⊢
      split_ifs <;> simp [hv]
    · simp only [hnew, ne_eq, hs, not_false_eq_true, true_and, not_true_eq_false, and_false, if_false,
        forall_const] at hv ⊢
      by_cases hb : x ∈ new.reachability.allUnreachableOrTerminated
      · simp only [hb, not_true_eq_false, and_false, if_false, true_and, iff_true, forall_const,
          false_implies, and_true]
        split_ifs with ha
        · rw [hv]
          tauto
        · tauto
      · simp only [hb, false_and, if_false, not_false_eq_true, and_true, iff_false, false_implies,
          true_and, forall_const]
        split_ifs with ha
        · tauto
        · rw [hv]
          tauto
  · simp only [hnew, false_and, and_false, if_false, not_false_eq_true, and_true, iff_false,
      false_implies, iff_true]
    split_ifs with hold
    · simp
    · rw [hv]
      exact fun h => hold h.2.1

/-- **One diff**: an exact view stays exact under exactly the stated condition. -/
theorem exact_diff_iff (hv : Exact self old v) :
    Exact self new (v.applyAll (diff old new self)) ↔ Faithful self old new := by
  rw [exact_iff_row] at hv ⊢
  have h := fun x => and_congr (@members_diff_iff old new self x hn v (hv x).1)
    (unreachable_diff_iff hn (hv x).2)
  rw [forall_congr' h]
  constructor
  · intro h
    refine ⟨fun m hm hr => (h _).1 m (member_of_mem hn hm) hr, ?_, ?_⟩
    · exact fun x hx hs => ((h x).2 hx hs).1
    · exact fun x hx hs => ((h x).2 hx hs).2
  · intro h x
    refine ⟨fun m hm hr => ?_, fun hx hs => ⟨h.known x hx hs, h.cleared x hx hs⟩⟩
    obtain ⟨hmem, rfl⟩ := mem_of_member hm
    exact h.removed m hmem hr

end Diff

lemma exact_snapshot {g : Gossip} (self : UniqueAddress) :
    Exact self g (ofState (.fromGossip g self)) := by
  refine ⟨fun x => ?_, fun x => ?_⟩
  · show Option.map fact (Finmap.lookup x (tabulate _ _)) = _
    rw [lookup_tabulate]
    split_ifs with hx
    · rfl
    · have : g.member x = none := by
        rw [← not_isSome_iff_eq_none, member_isSome_iff]
        exact fun h => hx (mem_toFinset.mpr h)
      rw [this]
  · simp only [ofState, CurrentClusterState.fromGossip, mem_toFinset, mem_map,
      mem_filterMap, mem_filter, Reachability.mem_negativeSubjects, decide_eq_true_eq]
    constructor
    · rintro ⟨m, ⟨n, ⟨hb, hs⟩, hm⟩, rfl⟩
      obtain ⟨hmem, rfl⟩ := mem_of_member hm
      exact ⟨hs, mem_map.mpr ⟨m, hmem, rfl⟩, hb⟩
    · rintro ⟨hs, hx, hb⟩
      obtain ⟨m, hm⟩ := isSome_iff_exists.mp (member_isSome_iff.mpr hx)
      exact ⟨m, ⟨x, ⟨hb, hs⟩, hm⟩, (mem_of_member hm).2⟩

lemma follow_exact_iff {self : UniqueAddress} {v : ClusterView} {g : Gossip} {gs : List Gossip}
    (hn : ∀ h ∈ g :: gs, h.Normalized) (hv : Exact self g v) :
    (∀ k, Exact self ((gs.take k).getLastD g) (follow self v g (gs.take k))) ↔
      List.IsChain (Faithful self) (g :: gs) := by
  induction gs generalizing g v with
  | nil => simpa [follow] using hv
  | cons new gs ih =>
    have step := exact_diff_iff (hn new (by simp)) hv
    rw [isChain_cons_cons, ← step]
    constructor
    · intro h
      have h1 : Exact self new (v.applyAll (diff g new self)) := by simpa [follow] using h 1
      refine ⟨h1, (ih (fun h hh => hn h (mem_cons_of_mem _ hh)) h1).mp fun k => ?_⟩
      have hk := h (k + 1)
      rwa [take_succ_cons, getLastD_cons] at hk
    · rintro ⟨h1, hc⟩ k
      cases k with
      | zero => exact hv
      | succ k =>
        rw [take_succ_cons, getLastD_cons]
        exact (ih (fun h hh => hn h (mem_cons_of_mem _ hh)) h1).mpr hc k

/-- **Replay**: the view of a subscriber is exact after every gossip of a sequence if and only if
consecutive gossips are faithful. -/
theorem replay_exact_iff {self : UniqueAddress} {g : Gossip} {gs : List Gossip}
    (hn : ∀ h ∈ g :: gs, h.Normalized) :
    (∀ k, Exact self ((gs.take k).getLastD g) (replay self g (gs.take k))) ↔
      List.IsChain (Faithful self) (g :: gs) :=
  follow_exact_iff hn (exact_snapshot self)

end ClusterView

/-! ## An observer is replaced -/

namespace ReplacedObserver

open ClusterView

def a : UniqueAddress := .localTo "a" 1
def b : UniqueAddress := .localTo "b" 2
def c : UniqueAddress := .localTo "c" 3

/-- The new incarnation of `b`. -/
def b' : UniqueAddress := .localTo "b" 4

def up : Gossip := .allUp ["a", "b", "c"]

/-- `b` has seen a new incarnation of `c` join, and is down itself. -/
def downed : Gossip :=
  ((up.withReachability (Reachability.new.terminated b c)).markDown c).markDown b

/-- The new incarnation of `b` has replaced the old one, whose observations are gone. -/
def replaced : Gossip := (downed.remove b 1).addMember (Member.new b' [])

/-- The view keeps `c` as unreachable; no gossip record says so any more. -/
theorem view_keeps_terminated :
    (∀ g ∈ [downed, replaced], g.Normalized) ∧ ¬ Exact a replaced (replay a downed [replaced]) := by
  have hview : c ∈ (replay a downed [replaced]).unreachable := by decide +kernel
  have hgossip : c ∉ replaced.reachability.allUnreachableOrTerminated := by decide +kernel
  refine ⟨by decide +kernel, ?_⟩
  intro h
  exact hgossip ((h.unreachable c).mp hview).2.2

/-- Downs and removals are followed exactly. -/
theorem replay_exact_removal :
    Exact a (downed.remove c 1) (replay a up [downed, downed.remove c 1]) :=
  (@replay_exact_iff a up [downed, downed.remove c 1] (by decide +kernel)).mpr (by decide +kernel) 2

end ReplacedObserver

end Kairo.Cluster
