import Kairo.Singleton.Protocol

/-!
# At most one running singleton

Along the age order of the eligible nodes: a manager that owns the singleton has only *released*
nodes before it, that is nodes whose manager has ended, has stopped, or is younger and can never be
the oldest again (`RuntimeInv.owning`).  A manager that waits remembers every older node that is not
released (`RuntimeInv.waiting`).  Two owners would have to be older than each other.

The conditions of `Careful` are needed: without them a manager that is slow to see the member events
answers a hand-over request and becomes the oldest afterwards, or a manager with two prior owners
starts on the word of the first one (`TwoLeave.two_running`).
-/

namespace Kairo.Singleton

open SingletonOldestTracker hiding new
open Kairo.Cluster Kairo.Lib SingletonManagerRuntime SingletonManagerState MemberEvent
  List

/-! ## Member histories -/

/-- The event sequence of a cluster in which every node keeps the age it got when it came up, with
its roles, and no node gets an age below one given out before. -/
structure Lifecycle (events : List MemberEvent) (age : UniqueAddress → ℕ) : Prop where
  age_eq : ∀ e ∈ events, ∀ a ∈ e.member.upNumber, a = age e.node
  age_inj : ∀ e ∈ events, ∀ e' ∈ events, e.member.upNumber.isSome → e'.member.upNumber.isSome →
    age e.node = age e'.node → e.node = e'.node
  up_aged : ∀ e ∈ events, e.member.status = .up → e.member.upNumber.isSome
  roles_eq : ∀ e ∈ events, ∀ e' ∈ events, e.node = e'.node → e.member.roles = e'.member.roles
  age_kept : events.Pairwise fun e e' =>
    e.node = e'.node → e.member.upNumber.isSome → e'.member.upNumber.isSome
  older_first : ∀ i : Fin events.length, (events.get i).member.upNumber.isSome →
    ∀ e ∈ events, e.member.upNumber.isSome → age e.node < age (events.get i).node →
    ∃ j < i, (events.get j).node = e.node ∧ (events.get j).member.upNumber.isSome

namespace SingletonCluster

variable (C : SingletonCluster)

/-- The node comes up in scope at some time. -/
def Eligible (n : UniqueAddress) : Prop :=
  ∃ e ∈ C.events, e.node = n ∧ e.member.upNumber.isSome = true ∧ C.scope.includes e.member = true

/-! ## Released nodes -/

/-- The node is not tracked by its own manager and will not come up again. -/
def Retired (node : ManagerNode) : Prop :=
  (∀ m ∈ node.tracker.membersByAge, m.uniqueAddress ≠ node.tracker.selfNode) ∧
  ∀ e ∈ C.events.drop node.pos, node.tracker.readmits e = false

/-- The manager has ended or stopped, or is younger and stays so. -/
def Finished (node : ManagerNode) : Prop :=
  node.runtime.state.isDone = true ∨ node.runtime.state.isYounger = true ∧ C.Retired node

/-- No manager of the node can run the singleton any more. -/
def Released (w : World) (n : UniqueAddress) : Prop :=
  C.hosts n = false ∨ ∃ node ∈ w.managers n, C.Finished node

instance (node : ManagerNode) : Decidable (C.Retired node) := inferInstanceAs (Decidable (_ ∧ _))

instance (node : ManagerNode) : Decidable (C.Finished node) := inferInstanceAs (Decidable (_ ∨ _))

instance (w : World) (n : UniqueAddress) : Decidable (C.Released w n) :=
  inferInstanceAs (Decidable (_ ∨ ∃ node ∈ w.managers n, C.Finished node))

/-! ## Careful steps -/

/-- The conditions under which the protocol keeps one singleton.  A manager starts from a snapshot
in which its node is up.  A node's removal, in a snapshot or as an event, reaches other managers once
the node is released.  A younger manager is asked to hand over only after it has seen its own node
leave.  A report that the first prior owner is done counts once the other ones are released. -/
def Careful (w : World) : Action → Prop
  | .start n p =>
    (∃ m ∈ MemberEvent.snapshot (C.events.take p), m.uniqueAddress = n ∧ m.status = .up) ∧
    ∀ e ∈ C.events.take p, e.isRemoved → e.node ≠ n → C.Released w e.node
  | .feed n =>
    ∀ node ∈ w.managers n, ∀ e ∈ C.events[node.pos]?, e.isRemoved → e.node ≠ n → C.Released w e.node
  | .deliver ⟨_, target, .handOverToMe⟩ =>
    ∀ node ∈ w.managers target, node.runtime.state.isYounger → C.Retired node
  | .deliver ⟨sender, target, .handOverDone⟩ =>
    ∀ node ∈ w.managers target, ∀ l ∈ node.runtime.state.waitsFor, l.head? = some sender →
      ∀ n ∈ l.tail, C.Released w n
  | _ => True

instance (w : World) (a : Action) : Decidable (C.Careful w a) := by
  unfold Careful
  split <;> infer_instance

/-! ## Released nodes stay released -/

variable {C} {node : ManagerNode} {effects : List SingletonManagerEffect} {n k : UniqueAddress}
  {e : MemberEvent}

lemma mem_install {w : World} {node node' : ManagerNode} :
    node' ∈ (w.install n node effects).managers k ↔
      k = n ∧ node' = node ∨ k ≠ n ∧ node' ∈ w.managers k := by
  unfold World.install
  by_cases h : k = n
  · subst h; simp [eq_comm]
  · simp [h]

lemma Finished.inputNode (h : C.Finished node) {i : Input}
    (hi : ∀ c, i ≠ .oldestChange c) (marked : Bool) : C.Finished (inputNode node i marked).1 := by
  rcases h with h | ⟨hy, hr⟩
  · exact .inl (apply_isDone h i)
  · rcases apply_younger hy (hi _) with h' | h'
    · exact .inr ⟨h', hr⟩
    · exact .inl h'

lemma Retired.advanceNode (h : C.Retired node) (he : C.events[node.pos]? = some e) :
    C.Retired (advanceNode node e).1 := by
  obtain ⟨hlt, rfl⟩ := List.getElem?_eq_some_iff.mp he
  have hdrop : C.events.drop node.pos = C.events[node.pos] :: C.events.drop (node.pos + 1) :=
    drop_eq_getElem_cons hlt
  have htr : (SingletonCluster.advanceNode node C.events[node.pos]).1.tracker =
      node.tracker.track C.events[node.pos] := by
    rw [← applyMemberEvent_fst]; rfl
  refine ⟨fun m hm hself => ?_, fun e' he' => ?_⟩
  · rw [htr] at hm hself
    rw [track_selfNode] at hself
    rcases mem_of_mem_track hm with hm | ⟨hup, ha⟩
    · exact h.1 m hm hself
    · have := h.2 C.events[node.pos] (by rw [hdrop]; exact mem_cons_self)
      simp [hup, readmits, hself, ha] at this
  · have := h.2 e' (by rw [hdrop]; exact mem_cons_of_mem _ he')
    rw [htr]
    cases e' <;> simp_all [readmits, track_selfNode,
      admits, track_scope]

lemma advanceNode_runtime (node : ManagerNode) (e : MemberEvent) :
    (advanceNode node e).1.runtime = node.runtime ∧ (advanceNode node e).2 = [] ∨
    ∃ c, (node.tracker.applyMemberEvent e).2 = some c ∧
      (advanceNode node e).1.runtime = (node.runtime.apply (.oldestChange c)).1 ∧
      (advanceNode node e).2 = (node.runtime.apply (.oldestChange c)).2 := by
  rcases h : node.tracker.applyMemberEvent e with ⟨t, _ | c⟩
  · exact .inl (by simp [advanceNode, h])
  · exact .inr ⟨c, rfl, by simp [advanceNode, h]⟩

lemma advanceNode_tracker (node : ManagerNode) (e : MemberEvent) :
    (advanceNode node e).1.tracker = node.tracker.track e := by
  rw [← applyMemberEvent_fst]; rfl

lemma Finished.advanceNode (h : C.Finished node)
    (hself : node.runtime.selfNode = node.tracker.selfNode) (he : C.events[node.pos]? = some e) :
    C.Finished (advanceNode node e).1 := by
  rcases advanceNode_runtime node e with ⟨hr, -⟩ | ⟨c, hc, hr, -⟩
  · rcases h with h | ⟨hy, h⟩
    · exact .inl (by rw [hr]; exact h)
    · exact .inr ⟨by rw [hr]; exact hy, h.advanceNode he⟩
  · rcases h with h | ⟨hy, h⟩
    · exact .inl (by rw [hr]; exact apply_isDone h _)
    · -- a retired node is not the first tracked one
      have hne : Input.oldestChange c ≠
          .oldestChange (.oldestChanged (some node.runtime.selfNode)) := by
        intro hi
        injection hi with hi
        subst hi
        have hcur := currentOldest_of_applyMemberEvent hc
        obtain ⟨m, hm, hmself⟩ := mem_of_currentOldest hcur
        rw [← advanceNode_tracker] at hm
        refine (h.advanceNode he).1 m hm ?_
        rw [advanceNode_tracker, track_selfNode, hmself, hself]
      rw [Finished, hr]
      rcases apply_younger hy hne with h' | h'
      · exact .inr ⟨h', h.advanceNode he⟩
      · exact .inl h'

lemma Released.install {w : World} (h : C.Released w k) {node' : ManagerNode}
    (hn : C.hosts n = true) (hf : ∀ node ∈ w.managers n, C.Finished node → C.Finished node') :
    C.Released (w.install n node' effects) k := by
  rcases h with h | ⟨node, hnode, hfin⟩
  · exact .inl h
  · by_cases hk : k = n
    · subst hk
      exact .inr ⟨node', mem_install.mpr (.inl ⟨rfl, rfl⟩), hf node hnode hfin⟩
    · exact .inr ⟨node, mem_install.mpr (.inr ⟨hk, hnode⟩), hfin⟩

/-! ## The invariant -/

variable (C)

/-- `j` is eligible and older than `k`. -/
def Older (age : UniqueAddress → ℕ) (j k : UniqueAddress) : Prop := C.Eligible j ∧ age j < age k

/-- What a manager on `n` knows about the nodes before it. -/
structure RuntimeInv (age : UniqueAddress → ℕ) (w : World) (n : UniqueAddress)
    (r : SingletonManagerRuntime) : Prop where
  waiting : ∀ l ∈ r.state.waitsFor, C.Eligible n → ∀ j, C.Older age j n → j ∈ l ∨ C.Released w j
  owning : r.state.owns = true → ∀ j, C.Older age j n → C.Released w j
  removed : ∀ j ∈ r.removed, j = n ∨ C.Released w j

structure NodeInv (age : UniqueAddress → ℕ) (w : World) (n : UniqueAddress) (node : ManagerNode) :
    Prop where
  hosted : C.hosts n = true
  started : node.runtime.state ≠ .start
  runtimeSelf : node.runtime.selfNode = n
  trackerSelf : node.tracker.selfNode = n
  trackerScope : node.tracker.scope = C.scope
  tracked : ∀ m ∈ node.tracker.membersByAge, C.Eligible m.uniqueAddress
  claiming : node.runtime.state.claims = true → C.Eligible n
  runtime : C.RuntimeInv age w n node.runtime

structure Inv (age : UniqueAddress → ℕ) (w : World) : Prop where
  nodes : ∀ n, ∀ node ∈ w.managers n, C.NodeInv age w n node
  done : ∀ p ∈ w.sent, p.msg = .handOverDone → C.Released w p.sender

variable {C} {age : UniqueAddress → ℕ} {w w' : World} {n : UniqueAddress}
  {node : ManagerNode} {p : ℕ} {effects : List SingletonManagerEffect} {e : MemberEvent} {i : Input}
  {m : Member} {j : UniqueAddress}

lemma inv_empty : C.Inv age World.empty := by
  constructor <;> simp [World.empty]

lemma NodeInv.mono (h : C.NodeInv age w n node)
    (hw : ∀ j, C.Released w j → C.Released w' j) : C.NodeInv age w' n node :=
  { h with
    runtime :=
      { waiting := fun l hl he j hj => (h.runtime.waiting l hl he j hj).imp_right (hw j)
        owning := fun ho j hj => hw j (h.runtime.owning ho j hj)
        removed := fun j hj => (h.runtime.removed j hj).imp_right (hw j) } }

lemma Older.ne {j k : UniqueAddress} (h : C.Older age j k) : j ≠ k := by
  rintro rfl
  exact absurd h.2 (lt_irrefl _)

/-- An input keeps what a manager knows, if a removed node and a reported prior owner are released. -/
lemma RuntimeInv.apply {r : SingletonManagerRuntime} (h : C.RuntimeInv age w n r)
    (hself : r.selfNode = n) (hel : (r.apply i).1.state.claims = true → C.Eligible n)
    (hrem : ∀ j, i = .markRemoved j → j = n ∨ C.Released w j)
    (hdone : ∀ sender rest started, i = .handOverDone sender →
      r.state = .becomingOldest (sender :: rest) started → ∀ j ∈ sender :: rest, C.Released w j) :
    C.RuntimeInv age w n (r.apply i).1 := by
  have hremoved : ∀ j ∈ (r.apply i).1.removed, j = n ∨ C.Released w j := by
    rw [apply_removed]
    intro j hj
    unfold removedAfter at hj
    split at hj
    · rcases Finset.mem_insert.mp hj with rfl | hj
      · exact hrem _ rfl
      · exact h.removed j hj
    · rcases Finset.mem_insert.mp hj with rfl | hj
      · exact .inl hself
      · exact h.removed j hj
    · exact h.removed j hj
  refine ⟨?_, ?_, hremoved⟩
  · -- the remembered prior owners
    intro l' hl' he j hj
    cases (r.apply_handled i).evolves with
    | same hs => rw [hs] at hl'; exact h.waiting l' hl' he j hj
    | waits l l'' hl hl'' hkeep =>
      obtain rfl : l'' = l' := by rw [hl''] at hl'; simpa using hl'
      rcases h.waiting l hl he j hj with hmem | hrel
      · rcases hkeep j hmem with hmem' | hi
        · exact .inl hmem'
        · exact .inr ((hrem j hi).resolve_left hj.ne)
      · exact .inr hrel
    | resigns ho hs => exact .inr (h.owning ho j hj)
    | leaves hs => rw [waitsFor_of_isDone hs] at hl'; cases hl'
    | startsAlone l _ hs | startsAfter sender rest started _ _ hs => rw [hs] at hl'; cases hl'
    | owns _ hs => rw [waitsFor_of_owns hs] at hl'; cases hl'
  · -- the nodes before an owner
    intro ho j hj
    have he : C.Eligible n := hel (claims_of_owns ho)
    cases (r.apply_handled i).evolves with
    | same hs => rw [hs] at ho; exact h.owning ho j hj
    | owns ho' _ => exact h.owning ho' j hj
    | startsAlone l hl _ hall =>
      rcases h.waiting l hl he j hj with hmem | hrel
      · exact (hremoved j (hall j hmem)).resolve_left hj.ne
      · exact hrel
    | startsAfter sender rest started hs hi _ =>
      rcases h.waiting (sender :: rest) (by rw [hs]; rfl) he j hj with hmem | hrel
      · exact hdone sender rest started hi hs j hmem
      · exact hrel
    | resigns _ hs => rw [hs] at ho; cases ho
    | leaves hs => rw [not_owns_of_isDone hs] at ho; cases ho
    | waits l l' _ hl' => rw [waitsFor_of_owns ho] at hl'; cases hl'

/-! ## Starting a manager -/

lemma Eligible.includes (hL : Lifecycle C.events age) (h : C.Eligible n)
    (he : e ∈ C.events) (hn : e.node = n) : C.scope.includes e.member = true := by
  obtain ⟨e', he', hn', -, hs⟩ := h
  have hroles := hL.roles_eq e he e' he' (hn.trans hn'.symm)
  have hrole : e.member.hasRole = e'.member.hasRole := by
    funext role
    rw [Member.hasRole, Member.hasRole, hroles]
  rw [SingletonScope.includes, hrole]
  exact hs

lemma eligible_of_mem_snapshot (hm : m ∈ snapshot (C.events.take p))
    (haged : m.upNumber.isSome = true) (hs : C.scope.includes m = true) :
    C.Eligible m.uniqueAddress := by
  obtain ⟨e, he, rfl⟩ := exists_of_mem_snapshot hm
  exact ⟨e, mem_of_mem_take he, rfl, haged, hs⟩

lemma age_of_mem_snapshot (hL : Lifecycle C.events age) (hm : m ∈ snapshot (C.events.take p))
    (haged : m.upNumber.isSome = true) : m.upNumber = some (age m.uniqueAddress) := by
  obtain ⟨e, he, rfl⟩ := exists_of_mem_snapshot hm
  obtain ⟨a, ha⟩ := Option.isSome_iff_exists.mp haged
  rw [ha, hL.age_eq e (mem_of_mem_take he) a ha]
  rfl

/-- A snapshot that holds a node with its age holds every older node with its age as well, unless
that node is removed in it. -/
lemma older_in_snapshot (hL : Lifecycle C.events age) (hm : m ∈ snapshot (C.events.take p))
    (haged : m.upNumber.isSome = true) (hj : C.Older age j m.uniqueAddress) :
    (∃ e ∈ C.events.take p, e.isRemoved = true ∧ e.node = j) ∨
      ∃ x ∈ snapshot (C.events.take p), x.uniqueAddress = j ∧
        x.upNumber = some (age j) ∧ C.scope.includes x = true := by
  obtain ⟨e, he, rfl⟩ := exists_of_mem_snapshot hm
  obtain ⟨⟨e', he', rfl, haged', hs'⟩, hlt⟩ := hj
  -- the older node got its age at an earlier place of the sequence
  obtain ⟨i, hi, rfl⟩ := mem_take_iff_getElem.mp he
  obtain ⟨k, hk, hkn, hka⟩ := hL.older_first ⟨i, by omega⟩ haged e' he' haged' hlt
  have hkt : C.events.get k ∈ C.events.take p := by
    refine mem_take_iff_getElem.mpr ⟨k, ?_, rfl⟩
    have : k < i := hk
    omega
  rcases removed_or_aged_of_mem (hL.age_kept.sublist (take_sublist _ _)) hkt hka with
    ⟨r, hr, hrr, hrn⟩ | ⟨x, hx, hxa, hxu⟩
  · exact .inl ⟨r, hr, hrr, hrn.trans hkn⟩
  · have hage := age_of_mem_snapshot hL hx hxu
    rw [hxa, hkn] at hage
    refine .inr ⟨x, hx, hxa.trans hkn, hage, ?_⟩
    obtain ⟨ex, hex, rfl⟩ := exists_of_mem_snapshot hx
    exact Eligible.includes hL ⟨e', he', rfl, haged', hs'⟩ (mem_of_mem_take hex) (hxa.trans hkn)

lemma startNode_tracks (n : UniqueAddress) (p : ℕ) :
    (C.startNode n p).1.tracker.Tracks (snapshot (C.events.take p)) ∧
      (C.startNode n p).1.tracker.selfNode = n ∧ (C.startNode n p).1.tracker.scope = C.scope :=
  tracks_foldl n C.scope _

lemma mem_startNode {x : Member} (hL : Lifecycle C.events age)
    (hx : x ∈ (C.startNode n p).1.tracker.membersByAge) :
    C.Eligible x.uniqueAddress ∧ x.upNumber = some (age x.uniqueAddress) := by
  obtain ⟨ht, -, hscope⟩ := C.startNode_tracks n p
  obtain ⟨hxs, hadm⟩ := ht.admitted x hx
  rw [admits, hscope, Bool.and_eq_true] at hadm
  exact ⟨eligible_of_mem_snapshot hxs hadm.1 hadm.2, age_of_mem_snapshot hL hxs hadm.1⟩

/-- A manager that starts carefully observes every older node that is not released. -/
lemma older_observed (hL : Lifecycle C.events age) (hc : C.Careful w (.start n p))
    (hn : C.Eligible n) (hj : C.Older age j n) :
    C.Released w j ∨ ∃ x ∈ (C.startNode n p).1.tracker.membersByAge, x.uniqueAddress = j ∧
      x.uniqueAddress ∈ (C.startNode n p).1.tracker.initialObservation.olderOrSelf := by
  obtain ⟨⟨m, hm, rfl, hup⟩, hrem⟩ := hc
  obtain ⟨ht, hself, hscope⟩ := C.startNode_tracks m.uniqueAddress p
  have tracked : ∀ x ∈ snapshot (C.events.take p), x.upNumber.isSome = true →
      C.scope.includes x = true → ∃ y ∈ (C.startNode m.uniqueAddress p).1.tracker.membersByAge,
        y.uniqueAddress = x.uniqueAddress := by
    intro x hx hu hs
    refine ht.complete x hx ?_
    rw [admits, hscope, hu, hs]
    rfl
  -- the node itself is up, hence tracked with its age
  obtain ⟨e, he, hem⟩ := exists_of_mem_snapshot hm
  have haged : m.upNumber.isSome = true := by
    rw [← hem] at hup ⊢
    exact hL.up_aged e (mem_of_mem_take he) hup
  have hscoped : C.scope.includes m = true := by
    rw [← hem]
    exact hn.includes hL (mem_of_mem_take he) (by rw [node, hem])
  rcases older_in_snapshot hL hm haged hj with ⟨r, hr, hrr, rfl⟩ | ⟨x, hx, rfl, hxu, hxs⟩
  · exact .inl (hrem r hr hrr hj.ne)
  · obtain ⟨y, hy, hyx⟩ := tracked x hx (by rw [hxu]; rfl) hxs
    refine .inr ⟨y, hy, hyx, mem_olderOrSelf (a := age m.uniqueAddress)
      ?_ (fun z hz hzself => ?_) hy ?_⟩
    · rw [hself]
      exact tracked m hm haged hscoped
    · rw [(mem_startNode hL hz).2, hzself, hself]
    · rw [(mem_startNode hL hy).2, hyx]
      exact hj.2.le

lemma nodeInv_start (hL : Lifecycle C.events age) (hc : C.Careful w (.start n p))
    (hh : C.hosts n = true) : C.NodeInv age w n (C.startNode n p).1 := by
  obtain ⟨ht, hself, hscope⟩ := C.startNode_tracks n p
  have hrt : (C.startNode n p).1.runtime = ((new n).applyInitialObservation
      (C.startNode n p).1.tracker.initialObservation).1 := rfl
  have hold : (C.startNode n p).1.tracker.initialObservation.oldest = some n →
      C.Eligible n ∧ ∀ j, C.Older age j n → C.Released w j := by
    intro ho
    obtain ⟨m, hm, rfl, hmin⟩ := exists_of_oldest ht.sorted ho
    obtain ⟨hel, hage⟩ := mem_startNode hL hm
    refine ⟨hel, fun j hj => ?_⟩
    rcases older_observed hL hc hel hj with hr | ⟨x, hx, rfl, -⟩
    · exact hr
    · -- the first observed node has the smallest age
      have := hmin x hx
      rw [hage, (mem_startNode hL hx).2] at this
      exact absurd this (not_le.mpr hj.2)
  have htr := fun m hm => (mem_startNode (n := n) (p := p) (x := m) hL hm).1
  rcases applyInitialObservation_cases (new n)
    (C.startNode n p).1.tracker.initialObservation with ⟨ho, heq⟩ | ⟨s, heq, hw, hcl⟩
  · rw [heq] at hrt
    obtain ⟨hel, hrel⟩ := hold ho
    refine ⟨hh, ?_, ?_, hself, hscope, htr, fun _ => hel, ?_⟩ <;> rw [hrt]
    · simp [gotoOldest]
    · rfl
    · exact ⟨by simp [gotoOldest, waitsFor], fun _ => hrel, by simp [gotoOldest, new]⟩
  · rw [heq] at hrt
    refine ⟨hh, ?_, ?_, hself, hscope, htr, ?_, ?_⟩ <;> rw [hrt]
    · rintro rfl
      cases hw
    · rfl
    · exact fun h => (hold (hcl h)).1
    · refine ⟨fun l hl hel j hj => ?_, fun ho => ?_, by simp [new]⟩
      · obtain rfl : withoutSelf _ _ = l := by
          rw [goto_state, hw] at hl
          simpa using hl
        rcases older_observed hL hc hel hj with hr | ⟨x, hx, rfl, hobs⟩
        · exact .inr hr
        · exact .inl (mem_filter.mpr ⟨hobs, decide_eq_true hj.ne⟩)
      · rw [goto_state] at ho
        rw [waitsFor_of_owns ho] at hw
        cases hw

/-! ## Inputs and events -/

lemma NodeInv.inputNode (hinv : C.Inv age w) (hn : w.managers n = some node)
    {a : Action} (hc : C.Careful w a) (hg : C.Given w n node a i) (marked : Bool) :
    C.NodeInv age w n (inputNode node i marked).1 := by
  have h := hinv.nodes n node hn
  have hcl : (node.runtime.apply i).1.state.claims = true → C.Eligible n := fun hcl =>
    h.claiming (claims_of_apply hcl h.started (hg.ne_oldestChange _))
  refine { h with
    started := apply_ne_start h.started i
    runtimeSelf := (apply_selfNode _ i).trans h.runtimeSelf
    claiming := hcl
    runtime := h.runtime.apply h.runtimeSelf hcl ?_ ?_ }
  · rintro j rfl
    obtain ⟨e, he, hr, rfl, rfl⟩ := hg.removed
    by_cases hne : e.node = n
    · exact .inl hne
    · exact .inr (hc node hn e he hr hne)
  · rintro sender rest started rfl hs j hj
    obtain ⟨rfl, hsent⟩ := hg.sent (m := .handOverDone)
    rcases mem_cons.mp hj with hj | hj
    · rw [hj]
      exact hinv.done _ hsent rfl
    · exact hc node hn (sender :: rest) (by rw [hs]; rfl) rfl j hj

lemma NodeInv.advanceNode (h : C.NodeInv age w n node)
    (he : C.events[node.pos]? = some e) : C.NodeInv age w n (advanceNode node e).1 := by
  have htr : ∀ m ∈ (node.tracker.track e).membersByAge, C.Eligible m.uniqueAddress := by
    intro m hm
    rcases mem_of_mem_track hm with hm | ⟨rfl, ha⟩
    · exact h.tracked m hm
    · rw [admits, h.trackerScope, Bool.and_eq_true] at ha
      exact ⟨_, mem_of_getElem? he, rfl, ha.1, ha.2⟩
  have hts : (SingletonCluster.advanceNode node e).1.tracker.selfNode = n := by
    rw [advanceNode_tracker, track_selfNode, h.trackerSelf]
  have htsc : (SingletonCluster.advanceNode node e).1.tracker.scope = C.scope := by
    rw [advanceNode_tracker, track_scope, h.trackerScope]
  rw [← advanceNode_tracker] at htr
  rcases advanceNode_runtime node e with ⟨hr, -⟩ | ⟨c, hc, hr, -⟩
  · refine ⟨h.hosted, ?_, ?_, hts, htsc, htr, ?_, ?_⟩ <;> rw [hr]
    exacts [h.started, h.runtimeSelf, h.claiming, h.runtime]
  · have hcl : (node.runtime.apply (.oldestChange c)).1.state.claims = true → C.Eligible n := by
      intro hcl
      by_cases hco : c = .oldestChanged (some n)
      · -- the first tracked node is eligible
        subst hco
        obtain ⟨m, hm, rfl⟩ := mem_of_currentOldest
          (currentOldest_of_applyMemberEvent hc)
        exact htr m (by rw [advanceNode_tracker]; exact hm)
      · refine h.claiming (claims_of_apply hcl h.started fun hi => hco ?_)
        injection hi with hi
        rw [hi, h.runtimeSelf]
    refine ⟨h.hosted, ?_, ?_, hts, htsc, htr, ?_, ?_⟩ <;> rw [hr]
    · exact apply_ne_start h.started _
    · exact (apply_selfNode _ _).trans h.runtimeSelf
    · exact hcl
    · exact h.runtime.apply h.runtimeSelf hcl (fun j hj => by cases hj) (fun _ _ _ hj => by cases hj)

/-! ## Steps and runs -/

lemma done_of_mem_packetsOf {p : Packet}
    (hp : p ∈ packetsOf n effects) (hd : p.msg = .handOverDone) :
    p.sender = n ∧ .sendHandOverDone p.target ∈ effects := by
  obtain ⟨effect, he, hep⟩ := mem_filterMap.mp hp
  cases effect <;> simp only [Option.some.injEq, reduceCtorEq] at hep <;> subst hep
  case sendHandOverDone target => exact ⟨rfl, he⟩
  all_goals cases hd

/-- Installing a manager keeps the invariant, if the manager meets its part, stays finished once it
is, and is finished when it reports that it is done. -/
lemma Inv.install (h : C.Inv age w) (hnode : C.NodeInv age w n node)
    (hf : ∀ old ∈ w.managers n, C.Finished old → C.Finished node)
    (hd : ∀ target, .sendHandOverDone target ∈ effects → C.Finished node) :
    C.Inv age (w.install n node effects) := by
  have hrel : ∀ j, C.Released w j → C.Released (w.install n node effects) j := fun j hj =>
    hj.install hnode.hosted hf
  refine ⟨fun k node' hk => ?_, fun p hp hdone => ?_⟩
  · rcases mem_install.mp hk with ⟨rfl, rfl⟩ | ⟨-, hk⟩
    · exact hnode.mono hrel
    · exact (h.nodes k node' hk).mono hrel
  · rcases mem_append.mp hp with hp | hp
    · exact hrel _ (h.done p hp hdone)
    · obtain ⟨hs, ht⟩ := done_of_mem_packetsOf hp hdone
      rw [hs]
      exact .inr ⟨node, mem_install.mpr (.inl ⟨rfl, rfl⟩), hd _ ht⟩

lemma startNode_not_done (n : UniqueAddress) (p : ℕ) (target : UniqueAddress) :
    .sendHandOverDone target ∉ (C.startNode n p).2 := by
  show .sendHandOverDone target ∉ ((new n).applyInitialObservation
    (C.startNode n p).1.tracker.initialObservation).2
  rcases applyInitialObservation_cases (new n)
    (C.startNode n p).1.tracker.initialObservation with ⟨-, heq⟩ | ⟨s, heq, -⟩
  · simp [heq, gotoOldest]
  · simp [heq]

lemma inv_step (hL : Lifecycle C.events age) {a : Action} (h : C.Inv age w) (hc : C.Careful w a)
    (hs : C.step w a = some w') : C.Inv age w' := by
  rcases step_cases hs with ⟨n, p, rfl, hh, hn, rfl⟩ | ⟨n, node, i, marked, hn, hg, rfl⟩ |
    ⟨n, node, e, hn, he, rfl⟩
  · refine h.install (nodeInv_start hL hc hh) (fun old hold => ?_) (fun target ht => ?_)
    · rw [hn] at hold; cases hold
    · exact absurd ht (startNode_not_done n p target)
  · have hnode := h.nodes n node hn
    refine h.install (NodeInv.inputNode h hn hc hg marked) (fun old hold hfin => ?_)
      (fun target ht => ?_)
    · obtain rfl : node = old := by rw [hn] at hold; simpa using hold
      exact hfin.inputNode hg.ne_oldestChange marked
    · -- only a manager that is done, or a younger one that has left, reports
      rcases (node.runtime.apply_handled i).done target ht with hdone | ⟨hy, hsame, rfl⟩
      · exact .inl hdone
      · obtain ⟨rfl, -⟩ := hg.sent (m := .handOverToMe)
        refine .inr ⟨?_, hc node hn hy⟩
        show (node.runtime.apply (.handOverToMe target)).1.state.isYounger = true
        rw [hsame]
        exact hy
  · have hnode := h.nodes n node hn
    refine h.install (hnode.advanceNode he) (fun old hold hfin => ?_) (fun target ht => ?_)
    · obtain rfl : node = old := by rw [hn] at hold; simpa using hold
      exact hfin.advanceNode (hnode.runtimeSelf.trans hnode.trackerSelf.symm) he
    · rcases advanceNode_runtime node e with ⟨-, heff⟩ | ⟨c, hc', hr, heff⟩
      · rw [heff] at ht; cases ht
      · rw [heff] at ht
        rcases (node.runtime.apply_handled _).done target ht with hdone | ⟨-, -, hi⟩
        · exact .inl (by rw [hr]; exact hdone)
        · cases hi

lemma inv_of_reach (hL : Lifecycle C.events age) (hr : C.machine.Reach C.Careful w) :
    C.Inv age w := by
  refine hr.invariant ?_ fun s i t hs hok hst => inv_step hL hs hok hst
  rintro s rfl
  exact inv_empty

/-- A node whose singleton runs is eligible, and no manager of an older node runs one. -/
lemma Inv.older_not_running (h : C.Inv age w) {a b : UniqueAddress} (ha : w.running a = true)
    (hb : w.running b = true) : C.Eligible a ∧ ¬ age a < age b := by
  obtain ⟨na, hna, hra⟩ := (Option.any_eq_true ..).mp ha
  obtain ⟨nb, hnb, hrb⟩ := (Option.any_eq_true ..).mp hb
  have hA := h.nodes a na hna
  have hB := h.nodes b nb hnb
  have hel : C.Eligible a := hA.claiming (claims_of_owns (owns_of_running hra))
  refine ⟨hel, fun hlt => ?_⟩
  rcases hB.runtime.owning (owns_of_running hrb) a ⟨hel, hlt⟩ with hh | ⟨node, hnode, hfin⟩
  · rw [hA.hosted] at hh; cases hh
  · obtain rfl : na = node := by rw [hna] at hnode; simpa using hnode
    have hclaims := claims_of_owns (owns_of_running hra)
    rcases hfin with hdone | ⟨hy, -⟩
    · rw [not_claims_of_isDone hdone] at hclaims; cases hclaims
    · rw [not_claims_of_isYounger hy] at hclaims; cases hclaims

/-- **At most one singleton runs.**  In a cluster whose members have a lifecycle, no careful run
reaches a state in which two managers have a running singleton. -/
theorem running_unique (hL : Lifecycle C.events age) (hr : C.machine.Reach C.Careful w)
    {a b : UniqueAddress} (ha : w.running a = true) (hb : w.running b = true) : a = b := by
  have hinv := inv_of_reach hL hr
  obtain ⟨⟨ea, hea, rfl, haa, -⟩, hab⟩ := hinv.older_not_running ha hb
  obtain ⟨⟨eb, heb, rfl, hba, -⟩, hba'⟩ := hinv.older_not_running hb ha
  exact hL.age_inj ea hea eb heb haa hba (le_antisymm (not_lt.mp hba') (not_lt.mp hab))

end SingletonCluster

/-! ## Three nodes, two of which leave -/

namespace TwoLeave

def nodeA : UniqueAddress := .localTo "a" 1
def nodeB : UniqueAddress := .localTo "b" 2
def nodeC : UniqueAddress := .localTo "c" 3

/-- A node with its uid as up number. -/
def member (n : UniqueAddress) (status : MemberStatus) : Member :=
  ((Member.new n []).withStatus status).withUpNumber n.uid

def cluster : SingletonCluster where
  scope := .all
  events := [.up (member nodeA .up), .up (member nodeB .up), .up (member nodeC .up),
    .left (member nodeA .leaving), .left (member nodeB .leaving),
    .removed (member nodeA .removed) .exiting]
  hosts _ := true

open SingletonCluster Action

/-- The youngest node hears of both departures first, asks the oldest one and starts on its report.
The middle node then hears that it is the oldest and, once the first one is removed, starts too. -/
theorem two_running : ∃ w, cluster.machine.Reachable w ∧
    (w.running nodeB && w.running nodeC) = true :=
  Machine.Reach.exists_of_exec
    [start nodeA 3, start nodeB 3, start nodeC 3, feed nodeC, feed nodeC,
      deliver ⟨nodeC, nodeA, .handOverToMe⟩, terminated nodeA,
      deliver ⟨nodeA, nodeC, .handOverDone⟩, feed nodeB, feed nodeB, feed nodeB]
    rfl (by decide +kernel)

lemma lifecycle : Lifecycle cluster.events (·.uid) := by
  constructor <;> decide +kernel

/-- The hand-over from the first node to the second. -/
theorem running_unique_handOver : ∃ w, cluster.machine.Reach cluster.Careful w ∧
    w.running nodeB = true ∧ ∀ n, w.running n = true → n = nodeB := by
  obtain ⟨w, hr, hb⟩ : ∃ w, cluster.machine.Reach cluster.Careful w ∧ w.running nodeB = true :=
    Machine.Reach.exists_of_exec
      [start nodeA 3, start nodeB 3, start nodeC 3, feed nodeC, feed nodeB,
        deliver ⟨nodeB, nodeA, .handOverToMe⟩, terminated nodeA,
        deliver ⟨nodeA, nodeB, .handOverDone⟩]
      rfl (by decide +kernel)
  exact ⟨w, hr, hb, fun n hn => running_unique lifecycle hr hn hb⟩

end TwoLeave

end Kairo.Singleton
