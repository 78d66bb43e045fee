import Kairo.DistributedData.Pruning

/-!
# Owners of pruning markers

The markers of one removed replica in one value, at every replica and in the messages on their way.
A replica's marker only moves to smaller owners and to performed.  A replica that has seen the marker of
an owner has stored it, so it does not start a marker of its own later, and if it had started one
before, then for a larger owner.  Two replicas can therefore not both collect the marks of all others
(`Owned.perform`).  Prunings of one replica follow each other in rounds (`Rounds`): a round is over when
its performed marker has expired, and the next one starts when nothing of it is held any more.
-/

namespace Kairo.DistributedData

variable {R : Type*} [LinearOrder R] {new : Option (PruningState R)} {q : R} {p : PruningPerformed}

/-! ## Views -/

/-- The markers of one removed replica: what the replicas store and what is on its way. -/
structure PruningView (R : Type*) where
  marker : R → Option (PruningState R)
  sent : Set (PruningState R)

namespace PruningView

/-- The marker is stored or on its way. -/
def Holds (v : PruningView R) (m : PruningState R) : Prop := m ∈ v.sent ∨ ∃ r, v.marker r = some m

def setMarker (v : PruningView R) (q : R) (m : Option (PruningState R)) : PruningView R :=
  { v with marker := Function.update v.marker q m }

lemma marker_setMarker (v : PruningView R) (q : R) (m : Option (PruningState R)) (r : R) :
    (v.setMarker q m).marker r = if r = q then m else v.marker r :=
  Function.update_apply v.marker q m r

lemma setMarker_self (v : PruningView R) (q : R) : v.setMarker q (v.marker q) = v := by
  unfold setMarker
  rw [Function.update_eq_self]

lemma setMarker_setMarker (v : PruningView R) (q : R) (m m' : Option (PruningState R)) :
    (v.setMarker q m).setMarker q m' = v.setMarker q m' := by
  unfold setMarker
  rw [Function.update_idem]

lemma holds_setMarker {v : PruningView R} {m : PruningState R} (h : (v.setMarker q new).Holds m) :
    v.Holds m ∨ new = some m := by
  rcases h with h | ⟨r, h⟩
  · exact .inl (.inl h)
  · rw [marker_setMarker] at h
    split_ifs at h with hr
    · exact .inr h
    · exact .inl (.inr ⟨r, h⟩)

end PruningView

/-! ## Steps of one replica -/

/-- The marker is performed, or initialized with an owner up to `o`. -/
def Under (m : Option (PruningState R)) (o : R) : Prop :=
  match m with
  | some (.initialized i) => i.owner ≤ o
  | some (.performed _) => True
  | none => False

/-- The replica's marker goes from `old` to `new` by what it knows: owners do not grow, and besides the
replica itself only replicas are marked that were marked before.  A performed marker stays, or gives way
to a later one. -/
structure Absorbs (known : PruningState R → Prop) (q : R) (old new : Option (PruningState R)) :
    Prop where
  under : ∀ o, Under old o → Under new o
  owner : ∀ i, new = some (.initialized i) → ∃ j, known (.initialized j) ∧ j.owner = i.owner
  seen : ∀ i, new = some (.initialized i) → ∀ r ∈ i.seen, r = q ∧ r ≠ i.owner ∨
    ∃ j, known (.initialized j) ∧ j.owner = i.owner ∧ r ∈ j.seen
  performed : ∀ p, new = some (.performed p) → known (.performed p)
  stays : ∀ p, old = some (.performed p) →
    ∃ p', new = some (.performed p') ∧ p.obsoleteAtMillis ≤ p'.obsoleteAtMillis

section Absorbs

variable {known : PruningState R → Prop} {q : R} {m : Option (PruningState R)}

lemma Absorbs.of_known (h : ∀ s, m = some s → known s) : Absorbs known q none m where
  under _ h := h.elim
  owner i hi := ⟨i, h _ hi, rfl⟩
  seen i hi _ hr := .inr ⟨i, h _ hi, rfl, hr⟩
  performed _ hp := h _ hp
  stays := nofun

lemma Absorbs.refl (h : ∀ s, m = some s → known s) : Absorbs known q m m :=
  { Absorbs.of_known h with under := fun _ h => h, stays := fun p hp => ⟨p, hp, le_rfl⟩ }

lemma Absorbs.addSeen {old new : Option (PruningState R)} (h : Absorbs known q old new) :
    Absorbs known q old (new.map (·.addSeen q)) := by
  cases new with
  | none => exact h
  | some m =>
    cases m with
    | performed p => exact h
    | initialized i =>
      have howner : (i.addSeen q).owner = i.owner := by
        rw [PruningInitialized.addSeen]
        split_ifs <;> rfl
      have hseen : ∀ r ∈ (i.addSeen q).seen, r = q ∧ r ≠ i.owner ∨ r ∈ i.seen := by
        intro r hr
        rw [PruningInitialized.addSeen] at hr
        split_ifs at hr with hmem
        · exact .inr hr
        · rw [not_or] at hmem
          rcases Finset.mem_insert.mp hr with rfl | hr
          · exact .inl ⟨rfl, hmem.1⟩
          · exact .inr hr
      constructor
      · intro o ho
        have hle : i.owner ≤ o := h.under o ho
        exact howner.le.trans hle
      · intro j hj
        cases hj
        rw [howner]
        exact h.owner i rfl
      · intro j hj r hr
        cases hj
        rw [howner]
        exact (hseen r hr).elim .inl fun hr => h.seen i rfl r hr
      · intro p hp
        cases hp
      · intro p hp
        obtain ⟨p', hp', -⟩ := h.stays p hp
        cases hp'

lemma Absorbs.merge {m m' : PruningState R} (hm : known m) (h : Absorbs known q none (some m')) :
    Absorbs known q (some m) (some (m.merge m')) := by
  have hrefl : Absorbs known q (some m) (some m) := by
    refine .refl fun s hs => ?_
    cases hs
    exact hm
  cases m with
  | performed p =>
    cases m' with
    | initialized j => exact hrefl
    | performed p' =>
      rw [PruningState.merge]
      split_ifs with hle
      · exact hrefl
      · refine { h with under := fun _ _ => trivial, stays := fun p hp => ⟨p', rfl, ?_⟩ }
        cases hp
        exact (not_le.mp hle).le
  | initialized i =>
    cases m' with
    | performed p' => exact { h with under := fun _ _ => trivial, stays := by rintro _ ⟨⟩ }
    | initialized j =>
      rw [PruningState.merge, PruningInitialized.merge]
      split_ifs with heq hlt
      · refine ⟨fun o ho => ho, fun k hk => ?_, fun k hk r hr => ?_, fun p hp => ?_, by rintro _ ⟨⟩⟩
        · cases hk
          exact ⟨i, hm, rfl⟩
        · cases hk
          rcases Finset.mem_union.mp hr with hr | hr
          · exact .inr ⟨i, hm, rfl, hr⟩
          · have := h.seen j rfl r hr
            rwa [← heq] at this
        · cases hp
      · exact hrefl
      · refine { h with under := fun o ho => ?_, stays := by rintro _ ⟨⟩ }
        have hle : i.owner ≤ o := ho
        exact (not_lt.mp hlt).trans hle

end Absorbs

/-! ## One round -/

/-- Who has initialized a marker, and who has performed; `live` are the replicas that take part. -/
structure Owned (live : Finset R) (started : Set R) (performer : Option R) (v : PruningView R) :
    Prop where
  owner : ∀ i, v.Holds (.initialized i) → i.owner ∈ started
  under : ∀ o ∈ started, Under (v.marker o) o
  seen : ∀ i, v.Holds (.initialized i) → ∀ r ∈ i.seen,
    r ≠ i.owner ∧ Under (v.marker r) i.owner ∧ (r ∈ started → i.owner < r)
  performed : ∀ p ∈ performer, p ∈ live ∧ p ∈ started ∧
    ∀ r ∈ live, r ≠ p → v.marker r ≠ none ∧ (r ∈ started → p < r)

namespace Owned

variable {live : Finset R} {started : Set R} {performer : Option R} {v : PruningView R}

lemma of_empty (h : ∀ m, ¬ v.Holds m) : Owned live ∅ none v where
  owner _ hi := absurd hi (h _)
  under _ ho := ho.elim
  seen _ hi := absurd hi (h _)
  performed := nofun

lemma ne_none_of_under {m : Option (PruningState R)} {o : R} (h : Under m o) : m ≠ none := by
  rintro rfl
  exact h

lemma under_setMarker (h : ∀ o, Under (v.marker q) o → Under new o) {r o : R}
    (hr : Under (v.marker r) o) : Under ((v.setMarker q new).marker r) o := by
  rw [PruningView.marker_setMarker]
  split_ifs with hrq
  · subst hrq
    exact h o hr
  · exact hr

lemma congr_holds {v' : PruningView R} (h : Owned live started performer v)
    (hmarker : v'.marker = v.marker) (hholds : ∀ m, v'.Holds m → v.Holds m) :
    Owned live started performer v' := by
  obtain ⟨howner, hunder, hseen, hperformed⟩ := h
  rw [← hmarker] at hunder hseen hperformed
  exact ⟨fun i hi => howner i (hholds _ hi), hunder, fun i hi => hseen i (hholds _ hi), hperformed⟩

lemma absorb (h : Owned live started performer v) (ha : Absorbs v.Holds q (v.marker q) new) :
    Owned live started performer (v.setMarker q new) where
  owner i hi := by
    rcases PruningView.holds_setMarker hi with hold | hnew
    · exact h.owner i hold
    · obtain ⟨j, hj, he⟩ := ha.owner i hnew
      rw [← he]
      exact h.owner j hj
  under o ho := under_setMarker ha.under (h.under o ho)
  seen i hi r hr := by
    rcases PruningView.holds_setMarker hi with hold | hnew
    · obtain ⟨hne, hunder, hlt⟩ := h.seen i hold r hr
      exact ⟨hne, under_setMarker ha.under hunder, hlt⟩
    · rcases ha.seen i hnew r hr with ⟨rfl, hne⟩ | ⟨j, hj, he, hr⟩
      · -- the replica marks itself: its own marker has this owner now
        refine ⟨hne, ?_, fun hstarted => ?_⟩
        · rw [PruningView.marker_setMarker, if_pos rfl, hnew]
          exact le_rfl
        · have hunder : Under new r := ha.under r (h.under r hstarted)
          rw [hnew] at hunder
          exact lt_of_le_of_ne hunder fun he => hne he.symm
      · obtain ⟨hne, hunder, hlt⟩ := h.seen j hj r hr
        rw [← he]
        exact ⟨hne, under_setMarker ha.under hunder, hlt⟩
  performed p hp := by
    obtain ⟨hlive, hstarted, hothers⟩ := h.performed p hp
    refine ⟨hlive, hstarted, fun r hr hne => ⟨?_, (hothers r hr hne).2⟩⟩
    have hsome := (hothers r hr hne).1
    -- a marker is never lost
    cases hm : v.marker r with
    | none => exact absurd hm hsome
    | some m =>
      have hunder : ∃ o, Under (v.marker r) o := by
        rw [hm]
        cases m with
        | initialized i => exact ⟨i.owner, le_rfl⟩
        | performed p => exact ⟨r, trivial⟩
      obtain ⟨o, ho⟩ := hunder
      exact ne_none_of_under (under_setMarker ha.under ho)

lemma start (h : Owned live started performer v) (hq : v.marker q = none) :
    Owned live (insert q started) performer (v.setMarker q (some (.initialized (.new q)))) := by
  have hunder : ∀ o, Under (v.marker q) o → Under (some (.initialized (.new q))) o := by
    intro o ho
    rw [hq] at ho
    exact ho.elim
  refine ⟨fun i hi => ?_, fun o ho => ?_, fun i hi r hr => ?_, fun p hp => ?_⟩
  · rcases PruningView.holds_setMarker hi with hi | hi
    · exact Set.mem_insert_of_mem _ (h.owner i hi)
    · cases hi
      exact Set.mem_insert q started
  · rcases Set.mem_insert_iff.mp ho with rfl | ho
    · rw [PruningView.marker_setMarker, if_pos rfl]
      exact le_rfl
    · exact under_setMarker hunder (h.under o ho)
  · rcases PruningView.holds_setMarker hi with hi | hi
    · obtain ⟨hne, hr, hlt⟩ := h.seen i hi r hr
      refine ⟨hne, under_setMarker hunder hr, fun hstarted => ?_⟩
      rcases Set.mem_insert_iff.mp hstarted with rfl | hstarted
      · -- it has seen a marker, so it would have one
        rw [hq] at hr
        exact hr.elim
      · exact hlt hstarted
    · cases hi
      cases hr
  · obtain ⟨hplive, hpstarted, hothers⟩ := h.performed p hp
    refine ⟨hplive, Set.mem_insert_of_mem _ hpstarted, fun r hr hne => ?_⟩
    obtain ⟨hsome, hlt⟩ := hothers r hr hne
    have hrq : r ≠ q := by
      rintro rfl
      exact hsome hq
    refine ⟨?_, fun hstarted => hlt ((Set.mem_insert_iff.mp hstarted).resolve_left hrq)⟩
    rw [PruningView.marker_setMarker, if_neg hrq]
    exact hsome

/-- **The owner of a marker that all live replicas have seen is the only one to perform.** -/
theorem perform (h : Owned live started performer v) {q : R} (hlive : q ∈ live)
    {i : PruningInitialized R} (hi : v.marker q = some (.initialized i)) (howner : i.owner = q)
    (hseen : ∀ r ∈ live, r ≠ q → r ∈ i.seen) (p : PruningPerformed) :
    Owned live started (some q) (v.setMarker q (some (.performed p))) ∧ ∀ p' ∈ performer, p' = q := by
  have hholds : v.Holds (.initialized i) := .inr ⟨q, hi⟩
  have hstarted : q ∈ started := howner ▸ h.owner i hholds
  have hfirst : ∀ r ∈ live, r ≠ q → v.marker r ≠ none ∧ (r ∈ started → q < r) := by
    intro r hr hne
    obtain ⟨-, hunder, hlt⟩ := h.seen i hholds r (hseen r hr hne)
    rw [howner] at hlt
    exact ⟨ne_none_of_under hunder, hlt⟩
  have hholds' : ∀ j, (v.setMarker q (some (.performed p))).Holds (.initialized j) →
      v.Holds (.initialized j) := by
    intro j hj
    rcases PruningView.holds_setMarker hj with hj | hj
    · exact hj
    · cases hj
  have hunder : ∀ o, Under (v.marker q) o → Under (some (.performed p)) o := fun _ _ => trivial
  refine ⟨⟨fun j hj => h.owner j (hholds' j hj), fun o ho => under_setMarker hunder (h.under o ho),
    fun j hj r hr => ?_, fun p' hp' => ?_⟩, fun p' hp' => ?_⟩
  · obtain ⟨hne, hr, hlt⟩ := h.seen j (hholds' j hj) r hr
    exact ⟨hne, under_setMarker hunder hr, hlt⟩
  · cases hp'
    refine ⟨hlive, hstarted, fun r hr hne => ⟨?_, (hfirst r hr hne).2⟩⟩
    rw [PruningView.marker_setMarker, if_neg hne]
    exact (hfirst r hr hne).1
  · by_contra hne
    obtain ⟨hlive', hstarted', hothers⟩ := h.performed p' hp'
    have h1 := (hothers q hlive fun he => hne he.symm).2 hstarted
    have h2 := (hfirst p' hlive' hne).2 hstarted'
    exact lt_asymm h1 h2

end Owned

/-! ## Rounds -/

/-- A performed pruning: by whom, the deadline of its marker, and the latest time on any clock when it
was performed. -/
structure Performance (R : Type*) where
  replica : R
  deadline : ℕ
  time : ℕ
  deriving DecidableEq

/-- Whoever performs before the marker of an earlier performance expires is the replica that performed
then. -/
def SinglePerformer (performances : List (Performance R)) : Prop :=
  performances.Pairwise fun e p => p.time < e.deadline → e.replica = p.replica

section Rounds

variable (live : Finset R) (v : PruningView R) (performances : List (Performance R)) (latest : ℕ)

/-- The round is over: only performed markers that have expired are held. -/
def Over : Prop := ∀ m, v.Holds m → ∃ p, m = .performed p ∧ p.obsoleteAtMillis ≤ latest

/-- A round is going on: whose marker has not expired has performed in it, and all performed markers are
those of one performance. -/
structure Active : Prop where
  owned : ∃ started performer, Owned live started performer v ∧
    ∀ e ∈ performances, latest < e.deadline → e.replica ∈ performer
  fresh : ∀ p, v.Holds (.performed p) → latest < p.obsoleteAtMillis
  same : ∀ p p', v.Holds (.performed p) → v.Holds (.performed p') → p = p'

/-- What holds of the markers when the clocks show at most `latest`: performed markers are recorded, who
has performed stores its marker until it expires, and one replica performs. -/
structure Rounds : Prop where
  recorded : ∀ p, v.Holds (.performed p) → ∃ e ∈ performances, e.deadline = p.obsoleteAtMillis
  stored : ∀ e ∈ performances, latest < e.deadline →
    ∃ p, v.marker e.replica = some (.performed p) ∧ e.deadline ≤ p.obsoleteAtMillis
  round : Over v latest ∨ Active live v performances latest
  single : SinglePerformer performances

end Rounds

namespace Rounds

variable {live : Finset R} {v : PruningView R} {performances : List (Performance R)} {latest : ℕ}

lemma of_empty (h : ∀ m, ¬ v.Holds m) : Rounds live v [] latest where
  recorded _ hp := absurd hp (h _)
  stored := nofun
  round := .inl fun m hm => absurd hm (h m)
  single := .nil

lemma congr_holds {v' : PruningView R} (h : Rounds live v performances latest)
    (hmarker : v'.marker = v.marker) (hholds : ∀ m, v'.Holds m → v.Holds m) :
    Rounds live v' performances latest where
  recorded p hp := h.recorded p (hholds _ hp)
  stored := hmarker ▸ h.stored
  round := h.round.imp (fun ho m hm => ho m (hholds m hm)) fun ⟨⟨started, performer, ho, hall⟩, hf, hs⟩ =>
    ⟨⟨started, performer, ho.congr_holds hmarker hholds, hall⟩, fun p hp => hf p (hholds _ hp),
      fun p p' hp hp' => hs p p' (hholds _ hp) (hholds _ hp')⟩
  single := h.single

/-- Time passes: when a performed marker expires no initialized one is held. -/
lemma observe (h : Rounds live v performances latest) {now : ℕ}
    (hout : ∀ p, v.Holds (.performed p) → p.obsoleteAtMillis ≤ max latest now →
      ∀ i, ¬ v.Holds (.initialized i)) : Rounds live v performances (max latest now) where
  recorded := h.recorded
  stored e he hlt := h.stored e he ((le_max_left _ _).trans_lt hlt)
  round := by
    rcases h.round with hover | hactive
    · exact .inl fun m hm => (hover m hm).imp fun p hp => ⟨hp.1, hp.2.trans (le_max_left _ _)⟩
    · by_cases hexpired : ∃ p, v.Holds (.performed p) ∧ p.obsoleteAtMillis ≤ max latest now
      · obtain ⟨p, hp, hle⟩ := hexpired
        refine .inl fun m hm => ?_
        cases m with
        | initialized i => exact absurd hm (hout p hp hle i)
        | performed p' => exact ⟨p', rfl, hactive.same p p' hp hm ▸ hle⟩
      · obtain ⟨started, performer, howned, hall⟩ := hactive.owned
        refine .inr ⟨⟨started, performer, howned, fun e he hlt => ?_⟩, fun p hp => ?_, hactive.same⟩
        · exact hall e he ((le_max_left _ _).trans_lt hlt)
        · exact not_le.mp fun hle => hexpired ⟨p, hp, hle⟩
  single := h.single

/-- A replica merges and marks. -/
lemma absorb (h : Rounds live v performances latest) (ha : Absorbs v.Holds q (v.marker q) new) :
    Rounds live (v.setMarker q new) performances latest := by
  have hholds : ∀ p, (v.setMarker q new).Holds (.performed p) → v.Holds (.performed p) :=
    fun p hp => (PruningView.holds_setMarker hp).elim id (ha.performed p)
  refine ⟨fun p hp => h.recorded p (hholds p hp), fun e he hlt => ?_, ?_, h.single⟩
  · obtain ⟨p, hp, hle⟩ := h.stored e he hlt
    rw [PruningView.marker_setMarker]
    split_ifs with hq
    · obtain ⟨p', hp', hle'⟩ := ha.stays p (hq ▸ hp)
      exact ⟨p', hp', hle.trans hle'⟩
    · exact ⟨p, hp, hle⟩
  · refine h.round.imp (fun hover m hm => ?_) fun ⟨⟨started, performer, howned, hall⟩, hf, hs⟩ =>
      ⟨⟨started, performer, howned.absorb ha, hall⟩, fun p hp => hf p (hholds p hp),
        fun p p' hp hp' => hs p p' (hholds p hp) (hholds p' hp')⟩
    cases m with
    | performed p => exact hover _ (hholds p hm)
    | initialized i =>
      rcases PruningView.holds_setMarker hm with hm | hm
      · exact hover _ hm
      · obtain ⟨j, hj, -⟩ := ha.owner i hm
        obtain ⟨p, hp, -⟩ := hover _ hj
        cases hp

/-- A replica drops a marker that has expired on its clock. -/
lemma expire (h : Rounds live v performances latest) {now : ℕ} (hnow : now ≤ latest) (q : R) :
    Rounds live (v.setMarker q ((v.marker q).filter (!·.isObsolete now))) performances latest := by
  by_cases hdrop : ∃ p, v.marker q = some (.performed p) ∧ p.obsoleteAtMillis ≤ now
  · obtain ⟨p, hp, hle⟩ := hdrop
    have hnone : (v.marker q).filter (!·.isObsolete now) = none := by
      simp [hp, PruningState.isObsolete, PruningPerformed.isObsolete, hle]
    have hholds : ∀ m, (v.setMarker q none).Holds m → v.Holds m :=
      fun m hm => (PruningView.holds_setMarker hm).elim id nofun
    rw [hnone]
    refine ⟨fun p hp => h.recorded p (hholds _ hp), fun e he hlt => ?_, .inl ?_, h.single⟩
    · obtain ⟨p', hp', hle'⟩ := h.stored e he hlt
      rw [PruningView.marker_setMarker]
      split_ifs with hq
      · rw [hq, hp] at hp'
        cases hp'
        omega
      · exact ⟨p', hp', hle'⟩
    · rcases h.round with hover | hactive
      · exact fun m hm => hover m (hholds m hm)
      · have := hactive.fresh p (.inr ⟨q, hp⟩)
        omega
  · have hsame : (v.marker q).filter (!·.isObsolete now) = v.marker q := by
      cases hm : v.marker q with
      | none => rfl
      | some m =>
        cases m with
        | initialized i => rfl
        | performed p =>
          have hlt : ¬ p.obsoleteAtMillis ≤ now := fun hle => hdrop ⟨p, hm, hle⟩
          simp [PruningState.isObsolete, PruningPerformed.isObsolete, hlt]
    rw [hsame, PruningView.setMarker_self]
    exact h

/-- A replica without a marker initializes one, while no expired marker is held. -/
lemma start (h : Rounds live v performances latest) (hq : v.marker q = none)
    (hfresh : ∀ p, v.Holds (.performed p) → latest < p.obsoleteAtMillis) :
    Rounds live (v.setMarker q (some (.initialized (.new q)))) performances latest := by
  have hactive : Active live v performances latest := by
    rcases h.round with hover | hactive
    · -- the round is over and nothing of it is left
      have hnone : ∀ m, ¬ v.Holds m := by
        intro m hm
        obtain ⟨p, rfl, hle⟩ := hover m hm
        have := hfresh p hm
        omega
      refine ⟨⟨∅, none, .of_empty hnone, fun e he hlt => ?_⟩, hfresh, fun p _ hp => absurd hp (hnone _)⟩
      obtain ⟨p, hp, -⟩ := h.stored e he hlt
      exact absurd (.inr ⟨_, hp⟩) (hnone (.performed p))
    · exact hactive
  have hholds : ∀ p, (v.setMarker q (some (.initialized (.new q)))).Holds (.performed p) →
      v.Holds (.performed p) := fun p hp => (PruningView.holds_setMarker hp).elim id nofun
  refine ⟨fun p hp => h.recorded p (hholds p hp), fun e he hlt => ?_, .inr ?_, h.single⟩
  · obtain ⟨p, hp, hle⟩ := h.stored e he hlt
    refine ⟨p, ?_, hle⟩
    rw [PruningView.marker_setMarker, if_neg, hp]
    rintro rfl
    rw [hq] at hp
    cases hp
  · obtain ⟨started, performer, howned, hall⟩ := hactive.owned
    exact ⟨⟨insert q started, performer, howned.start hq, hall⟩, fun p hp => hfresh p (hholds p hp),
      fun p p' hp hp' => hactive.same p p' (hholds p hp) (hholds p' hp')⟩

/-- The owner of a marker that all live replicas have seen performs, and all earlier markers have
expired. -/
lemma perform (h : Rounds live v performances latest) (hlive : q ∈ live) {i : PruningInitialized R}
    (hi : v.marker q = some (.initialized i)) (howner : i.owner = q)
    (hseen : ∀ r ∈ live, r ≠ q → r ∈ i.seen) (hp : latest < p.obsoleteAtMillis) :
    Rounds live (v.setMarker q (some (.performed p)))
      (performances ++ [⟨q, p.obsoleteAtMillis, latest⟩]) latest := by
  rcases h.round with hover | hactive
  · obtain ⟨p', hp', -⟩ := hover (.initialized i) (.inr ⟨q, hi⟩)
    cases hp'
  obtain ⟨started, performer, howned, hall⟩ := hactive.owned
  obtain ⟨howned', hsingle⟩ := howned.perform hlive hi howner hseen p
  -- an unexpired performance would be one of `q`, which would store its marker
  have hexpired : ∀ e ∈ performances, ¬ latest < e.deadline := by
    intro e he hlt
    obtain ⟨p', hp', -⟩ := h.stored e he hlt
    rw [hsingle _ (hall e he hlt), hi] at hp'
    cases hp'
  have hnew : ∀ p', (v.setMarker q (some (.performed p))).Holds (.performed p') → p' = p := by
    intro p' hp'
    rcases PruningView.holds_setMarker hp' with hp' | hp'
    · obtain ⟨e, he, hdeadline⟩ := h.recorded p' hp'
      exact absurd (hdeadline ▸ hactive.fresh p' hp') (hexpired e he)
    · cases hp'
      rfl
  have hlast : ∀ e ∈ performances ++ [⟨q, p.obsoleteAtMillis, latest⟩], latest < e.deadline →
      e = ⟨q, p.obsoleteAtMillis, latest⟩ := by
    intro e he hlt
    rcases List.mem_append.mp he with he | he
    · exact absurd hlt (hexpired e he)
    · exact List.mem_singleton.mp he
  refine ⟨fun p' hp' => ?_, fun e he hlt => ?_, .inr ⟨⟨started, some q, howned', fun e he hlt => ?_⟩,
    fun p' hp' => hnew p' hp' ▸ hp, fun p' p'' hp' hp'' => (hnew p' hp').trans (hnew p'' hp'').symm⟩, ?_⟩
  · obtain rfl := hnew p' hp'
    exact ⟨_, List.mem_concat_self, rfl⟩
  · obtain rfl := hlast e he hlt
    exact ⟨p, by rw [PruningView.marker_setMarker, if_pos rfl], le_rfl⟩
  · obtain rfl := hlast e he hlt
    rfl
  · refine List.pairwise_append.mpr ⟨h.single, List.pairwise_singleton _ _, fun e he e' he' hlt => ?_⟩
    obtain rfl := List.mem_singleton.mp he'
    exact absurd hlt (hexpired e he)

end Rounds

end Kairo.DistributedData
