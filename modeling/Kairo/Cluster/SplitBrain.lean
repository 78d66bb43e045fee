import Kairo.Cluster.Downing

/-!
# Agreement of the two sides of a partition

A clean partition (`Cut`) splits the members into two sides, each of which sees exactly the other one
unreachable.  The two sides run the same code on mirrored inputs, and the whole argument is that the
decision is mirrored as well: swapping the sides turns `downReachable` into `downUnreachable` and back
(`majorityDecision_mirror`, `oldestDecision_mirror`), so both sides name the same nodes.
-/

namespace Kairo.Cluster

open SplitBrain DowningDecision List

/-! ## Partitions -/

/-- The gossip of a node on the side `own`, when `other` is exactly what that side cannot reach. -/
structure CutView (g : Gossip) (own other : Finset UniqueAddress) : Prop where
  members : ∀ n, n ∈ g.addresses ↔ n ∈ own ∨ n ∈ other
  unreachable : g.reachability.allUnreachableOrTerminated = other
  observers : g.reachability.allObservers ⊆ own
  seen : g.seen ⊆ own

/-- A member set cut into two non-empty sides, with the gossip of each side. -/
structure Cut (left right : Gossip) (L R : Finset UniqueAddress) : Prop where
  sameMembers : left.members = right.members
  leftView : CutView left L R
  rightView : CutView right R L
  disjoint : Disjoint L R
  leftNonempty : L.Nonempty
  rightNonempty : R.Nonempty

variable {g : Gossip} {own other : Finset UniqueAddress}

/-- Nobody is indirectly connected in a clean partition. -/
lemma CutView.not_hasIndirectlyConnected (v : CutView g own other) (hd : Disjoint own other) :
    hasIndirectlyConnected g = false := by
  rw [hasIndirectlyConnected, decide_eq_false_iff_not, Finset.not_nonempty_iff_eq_empty,
    indirectlyConnectedNodes, Finset.union_eq_empty]
  constructor
  · -- an observer is on the own side, an unreachable node on the other one
    rw [indirectlyConnectedFromObserverSubjectIntersection, v.unreachable]
    exact Finset.disjoint_iff_inter_eq_empty.mp (hd.mono_left v.observers)
  · rw [indirectlyConnectedFromSeenCurrentGossip, toFinset_eq_empty_iff, flatMap_eq_nil_iff]
    intro r hr
    rw [mem_filter, decide_eq_true_eq] at hr
    obtain ⟨hr, hneg, hseen⟩ := hr
    have hother : r.subject ∈ other := by
      rw [← v.unreachable]
      exact Reachability.mem_allUnreachableOrTerminated.mpr ⟨r, hr, hneg, rfl⟩
    exact absurd hother (Finset.disjoint_left.mp hd (v.seen hseen))

/-! ## Mirrored decisions -/

/-- The same decision as the other side of the partition words it. -/
def DowningDecision.mirror : DowningDecision → DowningDecision
  | .downReachable => .downUnreachable
  | .downUnreachable => .downReachable
  | d => d

lemma majorityDecision_mirror {a b : ℕ} {U U' : Finset UniqueAddress} {lowest : Member}
    (h : lowest.uniqueAddress ∈ U' ↔ lowest.uniqueAddress ∉ U) :
    majorityDecision b a U' lowest = (majorityDecision a b U lowest).mirror := by
  unfold majorityDecision
  rcases lt_trichotomy a b with hab | hab | hab
  · simp [hab.ne, hab.ne', hab, hab.not_gt, mirror]
  · subst hab
    by_cases hl : lowest.uniqueAddress ∈ U <;> simp [h, hl, mirror]
  · simp [hab.ne, hab.ne', hab, hab.not_gt, mirror]

lemma oldestDecision_mirror (a b : ℕ) (downIfAlone oldestIsReachable : Bool) :
    oldestDecision b a downIfAlone (!oldestIsReachable) =
      (oldestDecision a b downIfAlone oldestIsReachable).mirror := by
  unfold oldestDecision
  cases oldestIsReachable <;> simp only [Bool.not_false, Bool.not_true] <;>
    split_ifs <;> simp_all [mirror]

section TwoSides

variable {left right : Gossip} {L R : Finset UniqueAddress} {role : Option String}
  {s : SplitBrainStrategy}

section

variable (c : Cut left right L R)

include c

lemma Cut.decisionMembers_eq (role : Option String) :
    decisionMembers right role = decisionMembers left role := by
  unfold decisionMembers
  rw [c.sameMembers]

lemma Cut.mem_right_iff {m : Member} (hm : m ∈ decisionMembers left role) :
    m.uniqueAddress ∈ R ↔ m.uniqueAddress ∉ L := by
  have hmem : m.uniqueAddress ∈ left.addresses := by
    rw [decisionMembers, mem_sortMembers, mem_filter, mem_filter] at hm
    exact mem_map_of_mem hm.1.1
  refine ⟨fun hR hL => Finset.disjoint_left.mp c.disjoint hL hR, fun hL => ?_⟩
  exact ((c.leftView.members _).mp hmem).resolve_left hL

/-- What one side can reach is what the other side cannot. -/
lemma Cut.count_eq (role : Option String) :
    ((decisionMembers left role).filter (·.uniqueAddress ∉ L)).length =
      (decisionMembers left role).length -
        ((decisionMembers left role).filter (·.uniqueAddress ∉ R)).length := by
  have hL : (decisionMembers left role).filter (·.uniqueAddress ∉ L) =
      (decisionMembers left role).filter (·.uniqueAddress ∈ R) :=
    filter_congr fun m hm => by simp [c.mem_right_iff hm]
  have hlen := length_eq_length_filter_add
    (l := decisionMembers left role) (fun m => decide (m.uniqueAddress ∈ R))
  have hneg : (decisionMembers left role).filter (fun m => !decide (m.uniqueAddress ∈ R)) =
      (decisionMembers left role).filter (·.uniqueAddress ∉ R) :=
    filter_congr fun m _ => by simp
  rw [hneg] at hlen
  rw [hL]
  omega

lemma Cut.keepMajorityDecision_mirror (role : Option String) :
    keepMajorityDecision right role = (keepMajorityDecision left role).mirror := by
  unfold keepMajorityDecision
  simp only [c.decisionMembers_eq, c.leftView.unreachable, c.rightView.unreachable]
  cases hlow : (decisionMembers left role).argmin (·.uniqueAddress.orderingKey) with
  | none => rfl
  | some lowest =>
    have hmem := argmin_mem hlow
    rw [c.count_eq, Nat.sub_sub_self (length_filter_le _ _)]
    exact majorityDecision_mirror (by rw [c.mem_right_iff hmem, not_not])

lemma Cut.keepOldestDecision_mirror (role : Option String) (downIfAlone : Bool) :
    keepOldestDecision right role downIfAlone = (keepOldestDecision left role downIfAlone).mirror := by
  unfold keepOldestDecision
  simp only [c.decisionMembers_eq, c.leftView.unreachable, c.rightView.unreachable]
  cases hold : (decisionMembers left role).argmin (·.ageKey) with
  | none => rfl
  | some oldest =>
    have hmem := argmin_mem hold
    have hside : decide (oldest.uniqueAddress ∉ L) = !decide (oldest.uniqueAddress ∉ R) := by
      simp [c.mem_right_iff hmem]
    rw [c.count_eq, Nat.sub_sub_self (length_filter_le _ _)]
    dsimp only
    rw [hside]
    exact oldestDecision_mirror _ _ _ _

end

/-! ## The nodes both sides down -/

def SplitBrainStrategy.weighsBy : SplitBrainStrategy → Option String → Prop
  | .downAll, _ => False
  | .keepMajority role, role' => role = role'
  | .keepOldest role _, role' => role = role'

/-- Every plan of either side downs exactly `nodes`. -/
def PlansDown (left right : Gossip) (s : SplitBrainStrategy) (nodes : Finset UniqueAddress) : Prop :=
  ∀ self, ((SplitBrainResolverHook.mk s).plan left self).nodesToDown.toFinset = nodes ∧
    ((SplitBrainResolverHook.mk s).plan right self).nodesToDown.toFinset = nodes

lemma Cut.decision_mirror (c : Cut left right L R) (hs : s.weighsBy role) :
    decision left s = decisionWithoutIndirectCheck left s ∧
    decision right s = (decisionWithoutIndirectCheck left s).mirror := by
  have hl := c.leftView.not_hasIndirectlyConnected c.disjoint
  have hr := c.rightView.not_hasIndirectlyConnected c.disjoint.symm
  cases s with
  | downAll => exact hs.elim
  | keepMajority role =>
    simp only [decision, hl, hr, decisionWithoutIndirectCheck, c.keepMajorityDecision_mirror role]
    exact ⟨rfl, rfl⟩
  | keepOldest role downIfAlone =>
    simp only [decision, hl, hr, decisionWithoutIndirectCheck,
      c.keepOldestDecision_mirror role downIfAlone]
    exact ⟨rfl, rfl⟩

/-- A weighing strategy gives up one side, or everything when no member qualifies. -/
lemma decisionWithoutIndirectCheck_cases (hs : s.weighsBy role) :
    decisionMembers g role = [] ∧ decisionWithoutIndirectCheck g s = .downAll ∨
    decisionMembers g role ≠ [] ∧ (decisionWithoutIndirectCheck g s = .downReachable ∨
        decisionWithoutIndirectCheck g s = .downUnreachable) := by
  cases s with
  | downAll => exact hs.elim
  | keepMajority _ =>
    cases hs
    simp only [decisionWithoutIndirectCheck, keepMajorityDecision]
    cases hlow : (decisionMembers g role).argmin (·.uniqueAddress.orderingKey) with
    | none => exact .inl ⟨argmin_eq_none.mp hlow, rfl⟩
    | some lowest =>
      refine .inr ⟨ne_nil_of_mem (argmin_mem hlow), ?_⟩
      simp only [majorityDecision]
      split_ifs <;> simp
  | keepOldest _ downIfAlone =>
    cases hs
    simp only [decisionWithoutIndirectCheck, keepOldestDecision]
    cases hold : (decisionMembers g role).argmin (·.ageKey) with
    | none => exact .inl ⟨argmin_eq_none.mp hold, rfl⟩
    | some oldest =>
      refine .inr ⟨ne_nil_of_mem (argmin_mem hold), ?_⟩
      simp only [oldestDecision]
      split_ifs <;> simp

lemma Cut.downableNodes_eq (c : Cut left right L R) : downableNodes right = downableNodes left := by
  unfold downableNodes
  rw [c.sameMembers]

lemma CutView.mem_or (v : CutView g own other) {n : UniqueAddress} (hn : n ∈ downableNodes g) :
    n ∈ own ∨ n ∈ other := by
  obtain ⟨m, hm, -, rfl⟩ := mem_downableNodes.mp hn
  exact (v.members _).mp (mem_map_of_mem hm)

/-- The nodes named on the left for a decision and on the right for its mirror image. -/
lemma Cut.plansDown_of_decision (c : Cut left right L R) (hs : s.weighsBy role) :
    (decisionWithoutIndirectCheck left s = .downAll →
      PlansDown left right s (downableNodes left).toFinset) ∧
    (decisionWithoutIndirectCheck left s = .downReachable →
      PlansDown left right s ((downableNodes left).toFinset ∩ L)) ∧
    (decisionWithoutIndirectCheck left s = .downUnreachable →
      PlansDown left right s ((downableNodes left).toFinset ∩ R)) := by
  obtain ⟨hl, hr⟩ := c.decision_mirror hs
  have hmem : ∀ n ∈ downableNodes left, n ∈ L ↔ n ∉ R := fun n hn =>
    ⟨fun h h' => Finset.disjoint_left.mp c.disjoint h h', fun h =>
    (c.leftView.mem_or hn).resolve_right h⟩
  have plan_eq : ∀ (g : Gossip) (d : DowningDecision), decision g s = d →
      d ≠ .downIndirectlyConnected → d ≠ .downSelfQuarantinedByRemote → ∀ self n,
      n ∈ ((SplitBrainResolverHook.mk s).plan g self).nodesToDown ↔
        n ∈ nodesToDownForDecision d g := by
    intro g d hd h1 h2 self n
    simp only [SplitBrainResolverHook.plan, SplitBrainResolverHook.decide, hd, ne_eq, h1,
      not_false_eq_true, if_true]
    exact mem_fromDecision h2
  refine ⟨fun hd => ?_, fun hd => ?_, fun hd => ?_⟩ <;> intro self <;> rw [hd] at hl hr <;>
    constructor <;> ext n <;> simp only [mem_toFinset, Finset.mem_inter]
  · rw [plan_eq left _ hl (by decide) (by decide)]; rfl
  · rw [plan_eq right _ hr (by decide) (by decide), ← c.downableNodes_eq]; rfl
  · rw [plan_eq left _ hl (by decide) (by decide)]
    simp only [nodesToDownForDecision, c.leftView.unreachable, mem_filter, decide_eq_true_eq]
    exact and_congr_right fun hn => (hmem n hn).symm
  · rw [plan_eq right _ hr (by decide) (by decide)]
    simp only [nodesToDownForDecision, c.rightView.unreachable, mem_filter,
      decide_eq_true_eq, mirror, c.downableNodes_eq]
  · rw [plan_eq left _ hl (by decide) (by decide)]
    simp only [nodesToDownForDecision, c.leftView.unreachable, mem_filter, decide_eq_true_eq]
  · rw [plan_eq right _ hr (by decide) (by decide)]
    simp only [nodesToDownForDecision, c.rightView.unreachable, mem_filter,
      decide_eq_true_eq, mirror, c.downableNodes_eq]
    exact and_congr_right fun hn => by rw [hmem n hn, not_not]

/-- A weighing strategy with a qualified member downs one side, and only that one. -/
lemma Cut.existsUnique_side (c : Cut left right L R) (hs : s.weighsBy role)
    (hm : decisionMembers left role ≠ []) :
    ∃! side, (side = L ∨ side = R) ∧ PlansDown left right s ((downableNodes left).toFinset ∩ side) := by
  obtain ⟨m, hmem⟩ := exists_mem_of_ne_nil _ hm
  have hdown := downable_of_mem_decisionMembers hmem
  -- the downable nodes of the two sides differ in the decisive member
  have hne : (downableNodes left).toFinset ∩ L ≠ (downableNodes left).toFinset ∩ R := by
    intro h
    have := congrArg (m.uniqueAddress ∈ ·) h
    simp [hdown, c.mem_right_iff hmem] at this
  have huniq : ∀ side side', (side = L ∨ side = R) → (side' = L ∨ side' = R) →
      PlansDown left right s ((downableNodes left).toFinset ∩ side) →
      PlansDown left right s ((downableNodes left).toFinset ∩ side') → side' = side := by
    intro side side' h h' p p'
    have e := (p m.uniqueAddress).1.symm.trans (p' m.uniqueAddress).1
    rcases h with rfl | rfl <;> rcases h' with rfl | rfl
    · rfl
    · exact absurd e hne
    · exact absurd e.symm hne
    · rfl
  obtain ⟨-, hreach, hunreach⟩ := c.plansDown_of_decision hs
  rcases decisionWithoutIndirectCheck_cases hs with ⟨h0, -⟩ | ⟨-, hd | hd⟩
  · exact absurd h0 hm
  · exact ⟨L, ⟨.inl rfl, hreach hd⟩, fun y hy => huniq _ _ (.inl rfl) hy.1 (hreach hd) hy.2⟩
  · exact ⟨R, ⟨.inr rfl, hunreach hd⟩, fun y hy => huniq _ _ (.inr rfl) hy.1 (hunreach hd) hy.2⟩

/-! ## The lease-majority test -/

/-- The first of the sorted decisive members is the one with the lowest address. -/
lemma argmin_sortMembers (ms : List Member) :
    (sortMembers ms).argmin (·.uniqueAddress.orderingKey) = (sortMembers ms).head? := by
  have hs : (sortMembers ms).Pairwise
      fun a b => a.uniqueAddress.orderingKey ≤ b.uniqueAddress.orderingKey :=
    pairwise_insertionSort _ _
  cases h : sortMembers ms with
  | nil => rfl
  | cons a l =>
    rw [h, pairwise_cons] at hs
    rw [argmin_cons]
    cases hl : l.argmin (·.uniqueAddress.orderingKey) with
    | none => rfl
    | some b => simp [not_lt.mpr (hs.1 b (argmin_mem hl))]

/-- The test holds exactly where keep-majority gives up the reachable side. -/
lemma isInMinority_iff :
    isInMinority g role = true ↔ keepMajorityDecision g role = .downReachable := by
  set U := g.reachability.allUnreachableOrTerminated with hU
  have hlen := length_eq_length_filter_add
    (l := decisionMembers g role) (fun m => decide (m.uniqueAddress ∈ U))
  have hneg : (decisionMembers g role).filter (fun m => !decide (m.uniqueAddress ∈ U)) =
      (decisionMembers g role).filter (·.uniqueAddress ∉ U) :=
    filter_congr fun m _ => by simp
  rw [hneg] at hlen
  have hhead : (decisionMembers g role).argmin (·.uniqueAddress.orderingKey) =
      (decisionMembers g role).head? := argmin_sortMembers _
  unfold isInMinority keepMajorityDecision
  simp only [hhead, ← hU]
  cases hd : decisionMembers g role with
  | nil => simp
  | cons first rest =>
    rw [hd] at hlen
    simp only [head?_cons, majorityDecision]
    generalize hu : ((first :: rest).filter fun m => decide (m.uniqueAddress ∈ U)).length = u at *
    generalize hr : ((first :: rest).filter fun m => decide (m.uniqueAddress ∉ U)).length = r at *
    rw [hlen]
    have hsub : u + r - r = u := by omega
    rw [hsub]
    rcases lt_trichotomy u r with h | h | h
    · rw [if_neg (by omega), if_neg (by omega), if_pos h]; simp; omega
    · subst h
      rw [if_pos (by omega), if_pos rfl]
      by_cases hf : first.uniqueAddress ∈ U <;> simp [hf]
    · rw [if_neg (by omega), if_neg (by omega), if_neg (by omega)]; simp; omega

/-! ## Agreement -/

/-- **Both sides of a clean partition down the same nodes.**  With no qualified member they down every
downable member and the minority test fails on both sides.  Otherwise keep-oldest and keep-majority
each down the downable members of exactly one side, and the minority test holds on exactly the side
that keep-majority downs. -/
theorem split_brain_agreement (c : Cut left right L R) (role : Option String) :
    (decisionMembers left role = [] →
      (∀ s : SplitBrainStrategy, s.weighsBy role →
        PlansDown left right s (downableNodes left).toFinset) ∧
      isInMinority left role = false ∧ isInMinority right role = false) ∧
    (decisionMembers left role ≠ [] →
      (∀ downIfAlone, ∃! side, (side = L ∨ side = R) ∧
        PlansDown left right (.keepOldest role downIfAlone) ((downableNodes left).toFinset ∩ side)) ∧
      (∃! side, (side = L ∨ side = R) ∧
        PlansDown left right (.keepMajority role) ((downableNodes left).toFinset ∩ side) ∧
        (isInMinority left role = true ↔ side = L) ∧
        (isInMinority right role = true ↔ side = R))) := by
  refine ⟨fun h0 => ⟨fun s hs => ?_, ?_, ?_⟩, fun hm => ⟨fun downIfAlone => ?_, ?_⟩⟩
  · rcases decisionWithoutIndirectCheck_cases hs with ⟨-, hd⟩ | ⟨h, -⟩
    · exact (c.plansDown_of_decision hs).1 hd
    · exact absurd h0 h
  · simp [isInMinority, h0]
  · simp [isInMinority, c.decisionMembers_eq, h0]
  · exact c.existsUnique_side rfl hm
  · have hs : (SplitBrainStrategy.keepMajority role).weighsBy role := rfl
    obtain ⟨side, ⟨hside, hplan⟩, huniq⟩ := c.existsUnique_side hs hm
    have hLR : L ≠ R := by
      rintro rfl
      exact c.leftNonempty.ne_empty (disjoint_self.mp c.disjoint)
    refine ⟨side, ⟨hside, hplan, ?_⟩, fun y hy => huniq y ⟨hy.1, hy.2.1⟩⟩
    obtain ⟨-, hreach, hunreach⟩ := c.plansDown_of_decision hs
    rw [isInMinority_iff, isInMinority_iff, c.keepMajorityDecision_mirror]
    rcases decisionWithoutIndirectCheck_cases hs with ⟨h0, -⟩ | ⟨-, hd | hd⟩
    · exact absurd h0 hm
    · obtain rfl : L = side := huniq L ⟨.inl rfl, hreach hd⟩
      simp only [decisionWithoutIndirectCheck] at hd
      simp [hd, mirror, hLR]
    · obtain rfl : R = side := huniq R ⟨.inr rfl, hunreach hd⟩
      simp only [decisionWithoutIndirectCheck] at hd
      simp [hd, mirror, hLR.symm]

end TwoSides

/-- The view of `a`, cut off from `b` and `c`. -/
def threeUpLone : Gossip :=
  ((Gossip.allUp ["a", "b", "c"]).withReachability
    ((Reachability.new.unreachable (.localTo "a" 1) (.localTo "b" 2)).unreachable
      (.localTo "a" 1) (.localTo "c" 3))).onlySeen (.localTo "a" 1)

/-- The view of `b` and `c`, cut off from `a`. -/
def threeUpPair : Gossip :=
  ((Gossip.allUp ["a", "b", "c"]).withReachability
    (Reachability.new.unreachable (.localTo "b" 2) (.localTo "a" 1))).onlySeen
    (.localTo "b" 2)

lemma threeUp_cut :
    Cut threeUpLone threeUpPair {.localTo "a" 1} {.localTo "b" 2, .localTo "c" 3} where
  sameMembers := rfl
  leftView :=
    { members := by
        have h : threeUpLone.addresses = [.localTo "a" 1, .localTo "b" 2, .localTo "c" 3] := by decide
        intro n; simp [h]
      unreachable := by decide
      observers := by decide
      seen := by decide }
  rightView :=
    { members := by
        have h : threeUpPair.addresses = [.localTo "a" 1, .localTo "b" 2, .localTo "c" 3] := by decide
        intro n; simp [h, or_comm]
      unreachable := by decide
      observers := by decide
      seen := by decide }
  disjoint := by decide
  leftNonempty := by decide
  rightNonempty := by decide

theorem split_brain_agreement_threeUp :
    decisionMembers threeUpLone none ≠ [] ∧
      ∃! side, (side = {.localTo "a" 1} ∨ side = {.localTo "b" 2, .localTo "c" 3}) ∧
        PlansDown threeUpLone threeUpPair (.keepMajority none)
          ((downableNodes threeUpLone).toFinset ∩ side) ∧
        (isInMinority threeUpLone none = true ↔ side = {.localTo "a" 1}) ∧
        (isInMinority threeUpPair none = true ↔ side = {.localTo "b" 2, .localTo "c" 3}) := by
  have h : decisionMembers threeUpLone none ≠ [] := by decide
  exact ⟨h, ((split_brain_agreement threeUp_cut none).2 h).2⟩

end Kairo.Cluster
