import Kairo.Lib.Positions
import Kairo.Actor.Scheduling

/-!
# No lost wakeup

Scheduling is skipped when the mailbox is not empty or the actor is scheduled already.  `Inv` says why
this loses nothing: the flag `scheduled` stands for exactly one activation, queued or running, and an
actor that is stopped or has messages is scheduled, or some thread is on its way to schedule it.
-/

namespace Kairo.Actor

open Kairo.Lib Phase Option List Finmap Advance Mailbox

/-! ## What a step of an activation does -/

variable {script : List Response} {cell cell' : ActorCell} {execution : Execution}

lemma runTurn_eq_ok {α : Type} {t : ActorTurn α} {x : α}
    (h : runTurn cell execution script t = some (.ok (x, cell'))) :
    cell'.mailbox = cell.mailbox ∧ cell'.terminated = cell.terminated ∧
      cell'.scheduled = cell.scheduled ∧ cell'.spawned = cell.spawned := by
  unfold runTurn at h
  split at h
  · obtain ⟨-, rfl⟩ := Prod.mk.inj (Except.ok.inj (some.inj h))
    exact ⟨rfl, rfl, rfl, rfl⟩
  · cases h
  · cases h

/-- The steps of an activation: it goes on, ends, or looks at the actor again. -/
inductive Moves (cell cell' : ActorCell) : Phase → Phase → Prop
  | goOn {phase phase' : Phase} : phase.isActive = true → phase'.isActive = true →
      phase ≠ .waiting → cell'.scheduled = cell.scheduled → cell'.terminated = cell.terminated →
      cell'.mailbox.scheduler = cell.mailbox.scheduler →
      (cell'.mailbox.closed = cell.mailbox.closed ∨ phase' = .waiting) → Moves cell cell' phase phase'
  | release {phase : Phase} : phase.isActive = true → phase ≠ .waiting →
      cell' = { cell with scheduled := false } → Moves cell cell' phase .rechecking
  | finish {phase : Phase} : phase.isActive = true → cell'.scheduled = false →
      cell'.terminated = true → Moves cell cell' phase .rechecking
  | recheckStopped : cell' = cell → Moves cell cell' .rechecking .waking
  | recheckMailbox : cell' = cell → cell.stopped = false →
      Moves cell cell' .rechecking .recheckingMailbox
  | recheckMessages : cell' = cell → Moves cell cell' .recheckingMailbox .waking

def Advance.isPanicked : Advance → Bool
  | .panicked => true
  | .next .. | .done | .wake => false

/-- What an activation can come to: it moves on, or the worker leaves an actor that is terminated or has
no messages, or schedules it. -/
def Advance.Comes (cell : ActorCell) (phase : Phase) : Advance → Prop
  | .next cell' phase' => cell'.spawned = cell.spawned ∧ Moves cell cell' phase phase'
  | .done => (phase = .rechecking ∧ cell.terminated = true) ∨
      (phase = .recheckingMailbox ∧ cell.mailbox.hasMessages = false)
  | .wake => phase = .waking
  | .panicked => True

variable {cell : ActorCell}

lemma Advance.comes_next {phase next : Phase} (h1 : phase.isActive = true)
    (h2 : next.isActive = true) (hne : phase ≠ .waiting) : Comes cell phase (.next cell next) :=
  ⟨rfl, .goOn h1 h2 hne rfl rfl rfl (.inl rfl)⟩

lemma Advance.comes_turn {α : Type} {t : ActorTurn α} {x : α} {phase next : Phase}
    (hr : runTurn cell execution script t = some (.ok (x, cell'))) (h1 : phase.isActive = true)
    (h2 : next.isActive = true) (hne : phase ≠ .waiting) : Comes cell phase (.next cell' next) := by
  obtain ⟨hmailbox, hterm, hs, hspawned⟩ := runTurn_eq_ok hr
  exact ⟨hspawned, .goOn h1 h2 hne hs hterm (by rw [hmailbox]) (.inl (by rw [hmailbox]))⟩

theorem comes_activationStep {throughput : ℕ}
    {phase : Phase} {adv : Advance} (h : activationStep throughput cell script phase = some adv) :
    adv.Comes cell phase := by
  cases phase with
  | entered =>
    rw [activationStep] at h
    split_ifs at h with ht
    · cases h
      exact ⟨rfl, .release rfl (by rintro ⟨⟩) rfl⟩
    · split at h
      · cases h
        exact comes_next rfl rfl (by rintro ⟨⟩)
      · obtain ⟨r, hr, rfl⟩ := map_eq_some_iff.mp h
        split
        · trivial
        · exact comes_turn hr rfl rfl (by rintro ⟨⟩)
        · exact ⟨(runTurn_eq_ok hr).2.2.2, .finish rfl rfl rfl⟩
  | users processed =>
    rw [activationStep] at h
    split_ifs at h
    · split at h
      · rename_i hd
        cases h
        obtain ⟨h1, h2⟩ := tryDequeue_eq_some hd
        exact ⟨rfl, .goOn rfl rfl (by rintro ⟨⟩) rfl rfl h1 (.inl h2)⟩
      · cases h
        exact comes_next rfl rfl (by rintro ⟨⟩)
    · cases h
      exact comes_next rfl rfl (by rintro ⟨⟩)
  | processing d processed | processingSystem d =>
    obtain ⟨execution, -, h⟩ := bind_eq_some_iff.mp h
    obtain ⟨r, hr, rfl⟩ := map_eq_some_iff.mp h
    split
    · trivial
    · exact comes_turn hr rfl rfl (by rintro ⟨⟩)
  | systems =>
    rw [activationStep] at h
    split_ifs at h
    · cases h
      exact comes_next rfl rfl (by rintro ⟨⟩)
    · split at h
      · rename_i hd
        cases h
        obtain ⟨h1, h2⟩ := tryDequeueSystem_eq_some hd
        exact ⟨rfl, .goOn rfl rfl (by rintro ⟨⟩) rfl rfl h1 (.inl h2)⟩
      · cases h
        exact comes_next rfl rfl (by rintro ⟨⟩)
  | leaving =>
    rw [activationStep] at h
    split_ifs at h
    · cases h
      exact comes_next rfl rfl (by rintro ⟨⟩)
    · cases h
      exact ⟨rfl, .release rfl (by rintro ⟨⟩) rfl⟩
  | closing =>
    cases h
    exact ⟨rfl, .goOn rfl rfl (by rintro ⟨⟩) rfl rfl rfl (.inr rfl)⟩
  | waiting =>
    obtain ⟨execution, -, h⟩ := bind_eq_some_iff.mp h
    obtain ⟨r, hr, rfl⟩ := map_eq_some_iff.mp h
    split
    · trivial
    · exact ⟨(runTurn_eq_ok hr).2.2.2, .finish rfl rfl rfl⟩
  | rechecking =>
    rw [activationStep] at h
    split_ifs at h with h1 h2
    · cases h
      exact .inl ⟨rfl, h1⟩
    · cases h
      exact ⟨rfl, .recheckStopped rfl⟩
    · cases h
      exact ⟨rfl, .recheckMailbox rfl (Bool.not_eq_true _ ▸ h2)⟩
  | recheckingMailbox =>
    rw [activationStep] at h
    split_ifs at h with h1
    · cases h
      exact ⟨rfl, .recheckMessages rfl⟩
    · cases h
      exact .inr ⟨rfl, Bool.not_eq_true _ ▸ h1⟩
  | waking =>
    cases h
    rfl

/-! ## Frames of an actor -/

namespace Dispatch

variable {Id : Type*} [DecidableEq Id]

/-- The frames of an actor on the stacks of the workers. -/
def frames (w : Dispatch Id) (a : Id) (p : Phase → Bool) : ℕ :=
  w.workers.flatten.countP fun f => f.1 = a && p f.2

def isScheduled (w : Dispatch Id) (a : Id) : Bool := (w.cells.lookup a).any (·.scheduled)

variable {w : Dispatch Id} {a b : Id} {k : ℕ} {rest : List (Id × Phase)} {phase : Phase}
  {p : Phase → Bool}

lemma frames_set {old : List (Id × Phase)} (hk : w.workers[k]? = some old)
    (new : List (Id × Phase)) (p : Phase → Bool) :
    { w with workers := w.workers.set k new }.frames b p +
        old.countP (fun f => f.1 = b && p f.2) =
      w.frames b p + new.countP fun f => f.1 = b && p f.2 :=
  countP_flatten_set _ hk new

lemma frames_replace (hk : w.workers[k]? = some ((a, phase) :: rest)) (phase' : Phase)
    (p : Phase → Bool) :
    { w with workers := w.workers.set k ((a, phase') :: rest) }.frames b p +
        (if a = b ∧ p phase = true then 1 else 0) =
      w.frames b p + if a = b ∧ p phase' = true then 1 else 0 := by
  have h := frames_set (b := b) hk ((a, phase') :: rest) p
  simp only [countP_cons, Bool.and_eq_true, decide_eq_true_eq] at h
  omega

lemma frames_pop (hk : w.workers[k]? = some ((a, phase) :: rest)) (p : Phase → Bool) :
    { w with workers := w.workers.set k rest }.frames b p +
        (if a = b ∧ p phase = true then 1 else 0) = w.frames b p := by
  have h := frames_set (b := b) hk rest p
  simp only [countP_cons, Bool.and_eq_true, decide_eq_true_eq] at h
  omega

lemma frames_push (hk : w.workers[k]? = some rest) (phase : Phase) (p : Phase → Bool) :
    { w with workers := w.workers.set k ((a, phase) :: rest) }.frames b p =
      w.frames b p + if a = b ∧ p phase = true then 1 else 0 := by
  have h := frames_set (b := b) hk ((a, phase) :: rest) p
  simp only [countP_cons, Bool.and_eq_true, decide_eq_true_eq] at h
  omega

lemma frames_push_of_not (hk : w.workers[k]? = some rest) (hn : ¬ (a = b ∧ p phase = true)) :
    { w with workers := w.workers.set k ((a, phase) :: rest) }.frames b p = w.frames b p := by
  rw [frames_push hk phase p, if_neg hn]
  rfl

lemma frames_pop_of_not (hk : w.workers[k]? = some ((a, phase) :: rest))
    (hn : ¬ (a = b ∧ p phase = true)) :
    { w with workers := w.workers.set k rest }.frames b p = w.frames b p := by
  have h := frames_pop (b := b) hk p
  rwa [if_neg hn] at h

lemma frames_pos_of_mem (hk : w.workers[k]? = some ((a, phase) :: rest))
    (hp : p phase = true) : 0 < w.frames a p := by
  have h := frames_pop (b := a) hk p
  rw [if_pos ⟨rfl, hp⟩] at h
  omega

lemma frames_mono {p q : Phase → Bool} (h : ∀ ph, p ph = true → q ph = true) :
    w.frames a p ≤ w.frames a q := by
  refine countP_mono_left fun f _ hf => ?_
  rw [Bool.and_eq_true] at hf ⊢
  exact ⟨hf.1, h _ hf.2⟩

lemma exists_frame_of_frames_pos (h : 0 < w.frames a p) :
    ∃ stack ∈ w.workers, ∃ ph, (a, ph) ∈ stack ∧ p ph = true := by
  obtain ⟨⟨b, ph⟩, hm, hf⟩ := countP_pos_iff.mp h
  rw [Bool.and_eq_true, decide_eq_true_eq] at hf
  obtain ⟨stack, hs, hm⟩ := mem_flatten.mp hm
  obtain ⟨rfl, hp⟩ := hf
  exact ⟨stack, hs, ph, hm, hp⟩

/-! ## The invariant -/

/-- The actor is scheduled or some thread is going to schedule it. -/
def Awake (w : Dispatch Id) (a : Id) (cell : ActorCell) : Prop :=
  cell.scheduled = true ∨ a ∈ w.waking ∨ 0 < w.frames a Phase.isRecheck ∨
    (0 < w.frames a (· = .recheckingMailbox) ∧ cell.mailbox.hasMessages = true)

structure CellInv (w : Dispatch Id) (a : Id) (cell : ActorCell) : Prop where
  closed : cell.mailbox.closed = true → cell.terminated = true ∨ 0 < w.frames a (· = .waiting)
  spawned : cell.spawned = true → cell.terminated = true ∨ cell.mailbox.scheduler = true
  messages : cell.mailbox.scheduler = true → cell.terminated = false →
    cell.mailbox.hasMessages = true → w.Awake a cell
  stop : cell.mailbox.scheduler = true → cell.terminated = false → cell.stopped = true →
    w.Awake a cell ∨ a ∈ w.stopping

structure Inv (w : Dispatch Id) : Prop where
  /-- The flag stands for one activation. -/
  token : ∀ a, w.queue.count a + w.frames a Phase.isActive = if w.isScheduled a then 1 else 0
  cell : ∀ a cell, w.cells.lookup a = some cell → w.CellInv a cell

lemma Inv.token_of (h : Inv w) (hl : w.cells.lookup a = some cell) :
    w.queue.count a + w.frames a isActive = if cell.scheduled then 1 else 0 := by
  have ht := h.token a
  rwa [isScheduled, hl] at ht

lemma Inv.scheduled_of_active (h : Inv w) (hl : w.cells.lookup a = some cell)
    (ha : 0 < w.frames a isActive) : cell.scheduled = true := by
  by_contra hs
  have ht := h.token_of hl
  rw [if_neg hs] at ht
  omega

/-- A closed mailbox belongs to an actor that terminates. -/
lemma Inv.scheduled_of_closed (h : Inv w) (hl : w.cells.lookup a = some cell)
    (hc : cell.mailbox.closed = true) (ht : cell.terminated = false) : cell.scheduled = true := by
  rcases (h.cell a cell hl).closed hc with hterm | hwait
  · rw [ht] at hterm
    cases hterm
  · refine h.scheduled_of_active hl (Nat.lt_of_lt_of_le hwait (frames_mono fun ph hp => ?_))
    rw [of_decide_eq_true hp]
    rfl

lemma Inv.of_local (h : Inv w) {w' : Dispatch Id}
    (hcells : ∀ b, b ≠ a → w'.cells.lookup b = w.cells.lookup b)
    (hframes : ∀ b, b ≠ a → ∀ p, w'.frames b p = w.frames b p)
    (hqueue : ∀ b, b ≠ a → w'.queue.count b = w.queue.count b)
    (hwaking : ∀ b, b ≠ a → b ∈ w.waking → b ∈ w'.waking)
    (hstopping : ∀ b, b ≠ a → b ∈ w.stopping → b ∈ w'.stopping)
    (htoken : w'.queue.count a + w'.frames a isActive = if w'.isScheduled a then 1 else 0)
    (hcell : ∀ cell, w'.cells.lookup a = some cell → w'.CellInv a cell) : Inv w' where
  token b := by
    by_cases hb : b = a
    · rw [hb]
      exact htoken
    · rw [hqueue b hb, hframes b hb, isScheduled, hcells b hb]
      exact h.token b
  cell b cell hl := by
    by_cases hb : b = a
    · subst hb
      exact hcell cell hl
    · rw [hcells b hb] at hl
      have hc := h.cell b cell hl
      have hawake : w.Awake b cell → w'.Awake b cell := by
        unfold Awake
        rw [hframes b hb, hframes b hb]
        rintro (h1 | h1 | h1)
        · exact .inl h1
        · exact .inr (.inl (hwaking b hb h1))
        · exact .inr (.inr h1)
      refine ⟨?_, hc.spawned, fun h1 h2 h3 => hawake (hc.messages h1 h2 h3), fun h1 h2 h3 => ?_⟩
      · rw [hframes b hb]
        exact hc.closed
      · exact (hc.stop h1 h2 h3).imp hawake (hstopping b hb)

lemma Inv.of_cell (h : Inv w) {waking stopping : List Id}
    (hl : w.cells.lookup a = some cell) (hs : cell'.scheduled = cell.scheduled)
    (hwaking : ∀ b, b ≠ a → b ∈ w.waking → b ∈ waking)
    (hstopping : ∀ b, b ≠ a → b ∈ w.stopping → b ∈ stopping)
    (hcell : CellInv { w with cells := w.cells.insert a cell', waking, stopping } a cell') :
    Inv { w with cells := w.cells.insert a cell', waking, stopping } := by
  have hlook : (w.cells.insert a cell').lookup a = some cell' :=
    lookup_insert _
  refine h.of_local (fun b hb => lookup_insert_of_ne _ hb)
    (fun _ _ _ => rfl) (fun _ _ => rfl) hwaking hstopping ?_ fun c hc => ?_
  · have ht := h.token_of hl
    rw [← hs] at ht
    rwa [isScheduled, hlook]
  · cases hlook.symm.trans hc
    exact hcell

/-! ## Steps of other threads -/

lemma Inv.deliver (h : Inv w) (hl : w.cells.lookup a = some cell)
    {mailbox : Mailbox} {schedule : Bool} (hg : cell.mailbox.Grows mailbox schedule) :
    Inv (w.deliver a cell mailbox schedule) := by
  have hc := h.cell a cell hl
  have hsub : ∀ b, b ∈ w.waking → b ∈ if schedule then w.waking ++ [a] else w.waking := by
    intro b hb
    cases schedule
    · exact hb
    · exact mem_append_left _ hb
  have hawake : w.Awake a cell → (w.deliver a cell mailbox schedule).Awake a { cell with mailbox } := by
    rintro (h1 | h1 | h1 | ⟨h1, h2⟩)
    · exact .inl h1
    · exact .inr (.inl (hsub a h1))
    · exact .inr (.inr (.inl h1))
    · exact .inr (.inr (.inr ⟨h1, hg.keeps h2⟩))
  refine h.of_cell hl rfl (fun b _ => hsub b) (fun _ _ hb => hb) ⟨?_, ?_, ?_, ?_⟩
  · rw [hg.closed]
    exact hc.closed
  · rw [hg.scheduler]
    exact hc.spawned
  · intro h1 h2 h3
    rw [hg.scheduler] at h1
    rcases hg.wakes h1 h3 with hm | hs
    · exact hawake (hc.messages h1 h2 hm)
    · refine .inr (.inl ?_)
      rw [hs]
      exact mem_concat_self
  · intro h1 h2 h3
    rw [hg.scheduler] at h1
    exact (hc.stop h1 h2 h3).imp_left hawake

lemma Inv.stopFlag (h : Inv w) (hl : w.cells.lookup a = some cell)
    {stopping : List Id} (hsub : ∀ b, b ∈ w.stopping → b ∈ stopping)
    (hstop : cell.mailbox.scheduler = true → cell.terminated = false →
      cell.scheduled = true ∨ a ∈ stopping) :
    Inv { w with cells := w.cells.insert a { cell with stopped := true }, stopping } := by
  have hc := h.cell a cell hl
  refine h.of_cell hl rfl (fun _ _ (hb : _ ∈ w.waking) => hb) (fun b _ => hsub b)
    ⟨hc.closed, hc.spawned, hc.messages, fun h1 h2 _ => ?_⟩
  exact (hstop h1 h2).imp_left .inl

/-- A thread that makes its schedule call; it no longer counts as one that is going to. -/
lemma Inv.scheduleCall (h : Inv w) {w0 : Dispatch Id} (hcells : w0.cells = w.cells)
    (hqueue : w0.queue = w.queue)
    (hframes : ∀ b, b ≠ a → ∀ p, w0.frames b p = w.frames b p)
    (hactive : w0.frames a isActive = w.frames a isActive)
    (hwaiting : w0.frames a (· = .waiting) = w.frames a (· = .waiting))
    (hwaking : ∀ b, b ≠ a → b ∈ w.waking → b ∈ w0.waking) (hstopping : w0.stopping = w.stopping) :
    Inv (w0.schedule a) := by
  have hsub : ∀ b, b ≠ a → b ∈ w.stopping → b ∈ w0.stopping := fun b _ hb => by rwa [hstopping]
  have hclosed : ∀ cell, w.cells.lookup a = some cell → cell.mailbox.closed = true →
      cell.terminated = true ∨ 0 < w0.frames a (· = .waiting) := by
    intro cell hl hc
    rw [hwaiting]
    exact (h.cell a cell hl).closed hc
  have htoken : w0.queue.count a + w0.frames a isActive = if w.isScheduled a then 1 else 0 := by
    rw [hqueue, hactive]
    exact h.token a
  unfold schedule
  rw [hcells]
  cases hl : w.cells.lookup a with
  | none =>
    refine h.of_local (fun _ _ => by rw [hcells]) hframes (fun _ _ => by rw [hqueue]) hwaking
      hsub ?_ fun cell hc => ?_
    · rw [isScheduled, hcells]
      exact htoken
    · rw [hcells, hl] at hc
      cases hc
  | some cell =>
    have hc := h.cell a cell hl
    rw [isScheduled, hl] at htoken
    dsimp only
    split_ifs with hs
    · refine h.of_local (fun _ _ => by rw [hcells]) hframes (fun _ _ => by rw [hqueue])
        hwaking hsub ?_ fun cell' hc' => ?_
      · rw [isScheduled, hcells, hl]
        exact htoken
      · rw [hcells] at hc'
        cases hl.symm.trans hc'
        exact ⟨hclosed cell hl, hc.spawned, fun _ _ _ => .inl hs, fun _ _ _ => .inl (.inl hs)⟩
    · have hlook : (w.cells.insert a { cell with scheduled := true }).lookup a =
          some { cell with scheduled := true } := lookup_insert _
      refine h.of_local (fun b hb => lookup_insert_of_ne _ hb)
        hframes (fun b hb => ?_) hwaking hsub ?_ fun cell' hc' => ?_
      · rw [hqueue, count_append, count_singleton, if_neg (by simpa using hb.symm)]
        rfl
      · rw [if_neg (show ¬ (some cell).any (·.scheduled) = true from hs)] at htoken
        rw [isScheduled, hlook, count_append, count_singleton_self]
        show _ + w0.frames a isActive = 1
        omega
      · cases hlook.symm.trans hc'
        exact ⟨hclosed cell hl, hc.spawned, fun _ _ _ => .inl rfl, fun _ _ _ => .inl (.inl rfl)⟩

lemma Inv.enqueueStop (h : Inv w) {i : ℕ} (hi : w.stopping[i]? = some a)
    (hl : w.cells.lookup a = some cell) :
    Inv ({ w with stopping := w.stopping.eraseIdx i }.deliver a cell
      (cell.mailbox.enqueueSystem .stop).1 (cell.mailbox.enqueueSystem .stop).2) := by
  have hd := h.deliver hl (grows_enqueueSystem .stop)
  set cell' : ActorCell := { cell with mailbox := (cell.mailbox.enqueueSystem .stop).1 } with hcell'
  have hlook : (w.cells.insert a cell').lookup a = some cell' :=
    lookup_insert _
  have hc' := hd.cell a cell' hlook
  refine hd.of_local (fun _ _ => rfl) (fun _ _ _ => rfl) (fun _ _ => rfl) (fun _ _ hb => hb)
    (fun b hb hm => mem_eraseIdx_of_ne hi hb hm) (hd.token a) fun c hc => ?_
  cases hlook.symm.trans hc
  refine ⟨hc'.closed, hc'.spawned, hc'.messages, fun h1 h2 _ => .inl ?_⟩
  cases hclosed : cell.mailbox.closed with
  | false => exact hc'.messages h1 h2 (hasMessages_enqueueSystem .stop hclosed)
  | true =>
    have hrun : cell.scheduled = true := h.scheduled_of_closed hl hclosed h2
    exact .inl hrun

lemma Inv.register (h : Inv w) (hl : w.cells.lookup a = none) (props : Props)
    (userCapacity : Option ℕ) :
    Inv { w with
      cells := w.cells.insert a ⟨props, .new userCapacity, false, none, false, false, false⟩ } := by
  refine h.of_local (fun b hb => lookup_insert_of_ne _ hb)
    (fun _ _ _ => rfl) (fun _ _ => rfl) (fun _ _ hb => hb) (fun _ _ hb => hb) ?_ fun c hc => ?_
  · have ht := h.token a
    rw [isScheduled, hl] at ht
    rw [isScheduled, lookup_insert]
    exact ht
  · rw [lookup_insert] at hc
    cases hc
    exact ⟨by rintro ⟨⟩, by rintro ⟨⟩, by rintro ⟨⟩, by rintro ⟨⟩⟩

lemma Inv.install (h : Inv w) (hl : w.cells.lookup a = some cell) : Inv { w with
      cells := w.cells.insert a { cell with mailbox := cell.mailbox.setScheduler, spawned := true }
      waking := w.waking ++ [a] } := by
  have hawake : a ∈ w.waking ++ [a] := mem_concat_self
  exact h.of_cell hl rfl (fun _ _ hb => mem_append_left _ hb)
    (fun _ _ hb => hb) ⟨(h.cell a cell hl).closed, fun _ => .inr rfl,
      fun _ _ _ => .inr (.inl hawake), fun _ _ _ => .inl (.inr (.inl hawake))⟩

/-! ## Steps of workers -/

lemma Inv.take (h : Inv w) {queue : List Id} (hq : w.queue = a :: queue)
    (hk : w.workers[k]? = some rest) :
    Inv { w with queue, workers := w.workers.set k ((a, .entered) :: rest) } := by
  have hsame : ∀ p : Phase → Bool, p .entered = false →
      ({ w with queue, workers := w.workers.set k ((a, .entered) :: rest) } :
        Dispatch Id).frames a p = w.frames a p := fun p hp => frames_push_of_not hk (by simp [hp])
  refine h.of_local (fun _ _ => rfl)
    (fun b hb p => frames_push_of_not hk fun hc => hb hc.1.symm) (fun b hb => ?_) (fun _ _ hb => hb)
    (fun _ _ hb => hb) ?_ fun cell hl => ?_
  · rw [hq, count_cons, if_neg (by simpa using hb.symm)]
    rfl
  · have ht := h.token a
    rw [hq, count_cons_self] at ht
    have hf := frames_push (b := a) (a := a) hk .entered isActive
    rw [if_pos ⟨rfl, rfl⟩] at hf
    show queue.count a + frames { w with workers := _ } _ _ = if w.isScheduled a then 1 else 0
    omega
  · have hc := h.cell a cell hl
    refine ⟨?_, hc.spawned, ?_, ?_⟩
    · rw [hsame _ rfl]
      exact hc.closed
    all_goals
      unfold Awake
      rw [hsame _ rfl, hsame _ rfl]
    · exact hc.messages
    · exact hc.stop

lemma Inv.done (h : Inv w) (hl : w.cells.lookup a = some cell)
    (hk : w.workers[k]? = some ((a, phase) :: rest))
    (hd : (phase = .rechecking ∧ cell.terminated = true) ∨
      (phase = .recheckingMailbox ∧ cell.mailbox.hasMessages = false)) :
    Inv { w with workers := w.workers.set k rest } := by
  have hsame : ∀ p : Phase → Bool, p phase = false →
      ({ w with workers := w.workers.set k rest }).frames a p = w.frames a p :=
    fun p hp => frames_pop_of_not hk (by simp [hp])
  have hinactive : phase.isActive = false ∧ decide (phase = .waiting) = false := by
    rcases hd with ⟨rfl, -⟩ | ⟨rfl, -⟩ <;> exact ⟨rfl, rfl⟩
  have hc := h.cell a cell hl
  refine h.of_local (fun _ _ => rfl)
    (fun b hb p => frames_pop_of_not hk fun hc => hb hc.1.symm) (fun _ _ => rfl) (fun _ _ hb => hb)
    (fun _ _ hb => hb) ?_ fun cell' hl' => ?_
  · rw [hsame _ hinactive.1]
    exact h.token a
  · cases hl.symm.trans hl'
    have hclosed : cell.mailbox.closed = true → cell.terminated = true ∨
        0 < ({ w with workers := w.workers.set k rest } : Dispatch Id).frames a (· = .waiting) := by
      rw [hsame _ hinactive.2]
      exact hc.closed
    rcases hd with ⟨-, hterm⟩ | ⟨rfl, hm⟩
    · refine ⟨hclosed, hc.spawned, fun _ h2 => ?_, fun _ h2 => ?_⟩
      all_goals
        rw [hterm] at h2
        cases h2
    · -- a worker that saw no messages is not what keeps a stopped actor awake
      have hawake : w.Awake a cell →
          ({ w with workers := w.workers.set k rest }).Awake a cell := by
        unfold Awake
        rw [hsame isRecheck rfl, hm]
        rintro (h1 | h1 | h1 | ⟨-, ⟨⟩⟩)
        · exact .inl h1
        · exact .inr (.inl h1)
        · exact .inr (.inr (.inl h1))
      refine ⟨hclosed, hc.spawned, fun _ _ h3 => ?_, fun h1 h2 h3 => (hc.stop h1 h2 h3).imp_left hawake⟩
      rw [hm] at h3
      cases h3

lemma Inv.wakeCall (h : Inv w) (hk : w.workers[k]? = some ((a, .waking) :: rest)) :
    Inv ({ w with workers := w.workers.set k rest }.schedule a) :=
  h.scheduleCall rfl rfl (fun _ hb _ => frames_pop_of_not hk fun hc => hb hc.1.symm)
    (frames_pop_of_not hk (by simp [isActive])) (frames_pop_of_not hk (by simp))
    (fun _ _ hb => hb) rfl

lemma Inv.next (h : Inv w) (hl : w.cells.lookup a = some cell)
    (hk : w.workers[k]? = some ((a, phase) :: rest)) {phase' : Phase}
    (hspawned : cell'.spawned = cell.spawned) (hm : Moves cell cell' phase phase') :
    Inv { w with
      cells := w.cells.insert a cell'
      workers := w.workers.set k ((a, phase') :: rest) } := by
  generalize hw' : ({ w with
      cells := w.cells.insert a cell'
      workers := w.workers.set k ((a, phase') :: rest) } : Dispatch Id) = w'
  have hf : ∀ b p, w'.frames b p + (if a = b ∧ p phase = true then 1 else 0) =
      w.frames b p + if a = b ∧ p phase' = true then 1 else 0 := by
    intro b p
    rw [← hw']
    exact frames_replace hk phase' p
  have hfa : ∀ p : Phase → Bool, w'.frames a p + (if p phase = true then 1 else 0) =
      w.frames a p + if p phase' = true then 1 else 0 := by
    intro p
    have := hf a p
    simpa only [true_and] using this
  have hlook : w'.cells.lookup a = some cell' := by
    rw [← hw']
    exact lookup_insert _
  have hc := h.cell a cell hl
  have htok := h.token_of hl
  have hqueue : w'.queue = w.queue := by rw [← hw']
  have hstep : (w'.queue.count a + w'.frames a isActive =
      if cell'.scheduled = true then 1 else 0) → w'.CellInv a cell' → Inv w' := by
    intro ht hci
    refine h.of_local (a := a) (fun b hb => ?_) (fun b hb p => ?_) (fun _ _ => by rw [hqueue])
      (fun _ _ hb => by rwa [← hw']) (fun _ _ hb => by rwa [← hw']) ?_ fun c hc => ?_
    · rw [← hw']
      exact lookup_insert_of_ne _ hb
    · have := hf b p
      rwa [if_neg (fun hc => hb hc.1.symm), if_neg (fun hc => hb hc.1.symm)] at this
    · rw [isScheduled, hlook]
      exact ht
    · cases hlook.symm.trans hc
      exact hci
  have hactive := hfa isActive
  rw [hqueue] at hstep
  have hnew : ∀ p : Phase → Bool, p phase' = true → 0 < w'.frames a p := fun p hp => by
    have hw : w'.workers[k]? = some ((a, phase') :: rest) := by
      rw [← hw']
      exact List.getElem?_set_self (List.getElem?_eq_some_iff.mp hk).1
    exact frames_pos_of_mem hw hp
  have hwaiting : phase ≠ .waiting → cell.mailbox.closed = true →
      cell.terminated = true ∨ 0 < w'.frames a (· = .waiting) := fun hne hcl => by
    have hwait := hfa (· = .waiting)
    rw [if_neg (show ¬ decide (phase = .waiting) = true by simpa using hne)] at hwait
    exact (hc.closed hcl).imp_right fun hpos => by omega
  -- an activation that only looks
  have hlooks : phase.isActive = false → phase'.isActive = false → cell' = cell →
      (cell.mailbox.hasMessages = true → w'.Awake a cell) →
      (cell.stopped = true → w'.Awake a cell) → Inv w' := by
    rintro h1 h2 rfl hmessages hstop
    rw [h1, h2] at hactive
    refine hstep ?_ ⟨hwaiting ?_, hc.spawned, fun _ _ => hmessages, fun _ _ h3 => .inl (hstop h3)⟩
    · refine Eq.trans ?_ htok
      omega
    · rintro rfl
      cases h1
  have hrun : phase.isActive = true → cell.scheduled = true := fun h1 =>
    h.scheduled_of_active hl (frames_pos_of_mem hk h1)
  cases hm with
  | goOn h1 h2 hne hs hterm hsched hclosed =>
    have hrun' : cell'.scheduled = true := hs.trans (hrun h1)
    rw [if_pos (hrun h1)] at htok
    rw [if_pos h1, if_pos h2] at hactive
    refine hstep ?_ ⟨fun hcl => ?_, ?_, fun _ _ _ => .inl hrun', fun _ _ _ => .inl (.inl hrun')⟩
    · rw [if_pos hrun']
      omega
    · rcases hclosed with hcl' | rfl
      · rw [hterm]
        exact hwaiting hne (hcl' ▸ hcl)
      · exact .inr (hnew _ (decide_eq_true rfl))
    · rw [hspawned, hterm, hsched]
      exact hc.spawned
  | release h1 hne heq =>
    subst heq
    rw [if_pos (hrun h1)] at htok
    rw [if_pos h1, if_neg (show ¬ isActive .rechecking = true by decide)] at hactive
    have hre := hnew isRecheck rfl
    refine hstep ?_ ⟨hwaiting hne, hc.spawned, fun _ _ _ => .inr (.inr (.inl hre)),
      fun _ _ _ => .inl (.inr (.inr (.inl hre)))⟩
    show _ = 0
    omega
  | finish h1 hs hterm =>
    rw [if_pos (hrun h1)] at htok
    rw [if_pos h1, if_neg (show ¬ isActive .rechecking = true by decide)] at hactive
    refine hstep ?_ ⟨fun _ => .inl hterm, fun _ => .inl hterm, fun _ h2 => ?_, fun _ h2 => ?_⟩
    · rw [hs, if_neg (by decide)]
      omega
    all_goals
      rw [hterm] at h2
      cases h2
  | recheckStopped heq | recheckMessages heq =>
    have hre := hnew isRecheck rfl
    exact hlooks rfl rfl heq (fun _ => .inr (.inr (.inl hre))) fun _ => .inr (.inr (.inl hre))
  | recheckMailbox heq hns =>
    refine hlooks rfl rfl heq (fun h3 => ?_) fun h3 => ?_
    · exact .inr (.inr (.inr ⟨hnew _ (decide_eq_true rfl), h3⟩))
    · rw [hns] at h3
      cases h3

/-! ## Runs -/

def NoPanic (throughput : ℕ) (w : Dispatch Id) : Action Id → Prop
  | .advance k script => ∀ stack ∈ w.workers[k]?, ∀ f ∈ stack.head?, ∀ cell ∈ w.cells.lookup f.1,
      (activationStep throughput cell script f.2).any Advance.isPanicked = false
  | _ => True

instance (throughput : ℕ) (w : Dispatch Id) : (act : Action Id) → Decidable (NoPanic throughput w act)
  | .advance k _ => inferInstanceAs (Decidable (∀ stack ∈ w.workers[k]?, ∀ f ∈ stack.head?,
      ∀ cell ∈ w.cells.lookup f.1, _ = false))
  | .register .. | .install _ | .enqueue .. | .prepend .. | .enqueueSystem .. | .requestStop _
  | .enqueueStop _ | .wake _ | .take _ => isTrue trivial

lemma Inv.rejectClosed (h : Inv w) (hl : w.cells.lookup a = some cell)
    (hc : cell.mailbox.closed = true) (d : Dequeued) : Inv (w.rejectClosed a cell d) := by
  have hflag : Inv { w with cells := w.cells.insert a { cell with stopped := true } } :=
    h.stopFlag hl (fun _ (hb : _ ∈ w.stopping) => hb) fun _ ht =>
      .inl (h.scheduled_of_closed hl hc ht)
  cases d with
  | adapted _ => exact h
  | _ => exact hflag

lemma enqueueEnvelope_eq_closed {m : Mailbox} {d : Dequeued}
    (h : m.enqueueEnvelope d = .error .closed) : m.closed = true := by
  unfold enqueueEnvelope at h
  split_ifs at h with hc hf
  · exact hc
  · cases h

lemma Inv.step {throughput : ℕ} (h : Inv w) {act : Action Id} {t : Dispatch Id}
    (hok : NoPanic throughput w act) (ht : w.step throughput act = some t) : Inv t := by
  cases act with
  | register a props userCapacity =>
    rw [Dispatch.step] at ht
    split at ht
    · cases ht
    · rename_i hl
      cases ht
      exact h.register hl props userCapacity
  | install a =>
    obtain ⟨cell, hl, ht⟩ := bind_eq_some_iff.mp ht
    split_ifs at ht
    cases ht
    exact h.install hl
  | enqueue a d =>
    obtain ⟨cell, hl, ht⟩ := bind_eq_some_iff.mp ht
    split_ifs at ht
    split at ht
    · rename_i hm
      cases ht
      exact h.deliver hl (grows_enqueueEnvelope hm)
    · rename_i hm
      cases ht
      exact h.rejectClosed hl (enqueueEnvelope_eq_closed hm) d
    · cases ht
      exact h
  | prepend a count =>
    obtain ⟨cell, hl, rfl⟩ := map_eq_some_iff.mp ht
    split
    · rename_i hm
      exact h.deliver hl (grows_prependUserMessages hm)
    · exact h
  | enqueueSystem a d =>
    obtain ⟨cell, hl, ht⟩ := bind_eq_some_iff.mp ht
    split_ifs at ht
    cases ht
    exact h.deliver hl (grows_enqueueSystem d)
  | requestStop a =>
    obtain ⟨cell, hl, rfl⟩ := map_eq_some_iff.mp ht
    split_ifs
    · exact h
    · exact h.stopFlag hl (fun _ hb => mem_append_left _ hb) fun _ _ =>
        .inr mem_concat_self
  | enqueueStop i =>
    obtain ⟨a, hi, ht⟩ := bind_eq_some_iff.mp ht
    obtain ⟨cell, hl, rfl⟩ := map_eq_some_iff.mp ht
    exact h.enqueueStop hi hl
  | wake i =>
    obtain ⟨a, hi, rfl⟩ := map_eq_some_iff.mp ht
    exact h.scheduleCall rfl rfl (fun _ _ _ => rfl) rfl rfl
      (fun b hb hm => mem_eraseIdx_of_ne hi hb hm) rfl
  | take k =>
    obtain ⟨stack, hk, ht⟩ := bind_eq_some_iff.mp ht
    split at ht
    · cases ht
    · rename_i hq
      split_ifs at ht
      cases ht
      exact h.take hq hk
  | advance k script =>
    obtain ⟨stack, hk, ht⟩ := bind_eq_some_iff.mp ht
    cases stack with
    | nil => cases ht
    | cons f rest =>
      obtain ⟨a, phase⟩ := f
      obtain ⟨cell, hl, ht⟩ := bind_eq_some_iff.mp ht
      obtain ⟨adv, hadv, rfl⟩ := map_eq_some_iff.mp ht
      cases adv with
      | next cell' phase' =>
        obtain ⟨hsp, hm⟩ := comes_activationStep hadv
        exact h.next hl hk hsp hm
      | done => exact h.done hl hk (comes_activationStep hadv)
      | wake =>
        obtain rfl : phase = .waking := comes_activationStep hadv
        exact h.wakeCall hk
      | panicked =>
        have hno := hok _ hk _ rfl cell hl
        rw [hadv] at hno
        cases hno

omit [DecidableEq Id] in
lemma flatten_replicate_nil (n : ℕ) : (replicate n ([] : List (Id × Phase))).flatten = [] := by
  induction n with
  | zero => rfl
  | succ n ih => rw [replicate_succ, flatten_cons, ih]; rfl

lemma Inv.start (workers : ℕ) : Inv (start workers : Dispatch Id) where
  token a := by
    unfold frames Dispatch.start
    rw [flatten_replicate_nil]
    rfl
  cell a cell hl := by cases hl

lemma Inv.of_reach {throughput workers : ℕ}
    (hr : (machine throughput workers).Reach (NoPanic throughput) w) : Inv w := by
  refine hr.invariant ?_ fun s act t hs hok ht => hs.step hok ht
  rintro s rfl
  exact .start workers

/-- **No lost wakeup**: an actor that was spawned, has not terminated, and is stopped or has messages
is in the queue, a worker runs it or looks at it again, or some thread is between its enqueue or stop
request and its schedule call; and an actor has at most one running activation. -/
theorem no_lost_wakeup {throughput workers : ℕ}
    (hr : (machine throughput workers).Reach (NoPanic throughput) w) :
    (∀ a cell, w.cells.lookup a = some cell → cell.spawned = true → cell.terminated = false →
      cell.mailbox.hasMessages = true ∨ cell.stopped = true →
        a ∈ w.queue ∨ (∃ stack ∈ w.workers, ∃ phase, (a, phase) ∈ stack) ∨ a ∈ w.waking ∨
          a ∈ w.stopping) ∧
    ∀ a, w.queue.count a + w.frames a Phase.isActive ≤ 1 := by
  have h := Inv.of_reach hr
  refine ⟨fun a cell hl hsp hterm hneed => ?_, fun a => ?_⟩
  · have hc := h.cell a cell hl
    have hsched : cell.mailbox.scheduler = true := by
      rcases hc.spawned hsp with ht | hs
      · rw [hterm] at ht
        cases ht
      · exact hs
    have hawake : w.Awake a cell ∨ a ∈ w.stopping := by
      rcases hneed with hm | hst
      · exact .inl (hc.messages hsched hterm hm)
      · exact hc.stop hsched hterm hst
    have hframe : ∀ {p : Phase → Bool}, 0 < w.frames a p →
        ∃ stack ∈ w.workers, ∃ phase, (a, phase) ∈ stack := by
      intro p hp
      obtain ⟨stack, hs, ph, hm, -⟩ := exists_frame_of_frames_pos hp
      exact ⟨stack, hs, ph, hm⟩
    rcases hawake with (hs | hw | hre | ⟨hre, -⟩) | hstop
    · -- the flag stands for a queued or a running activation
      have ht := h.token_of hl
      rw [if_pos hs] at ht
      by_cases hq : a ∈ w.queue
      · exact .inl hq
      · rw [count_eq_zero_of_not_mem hq] at ht
        exact .inr (.inl (hframe (p := isActive) (by omega)))
    · exact .inr (.inr (.inl hw))
    · exact .inr (.inl (hframe hre))
    · exact .inr (.inl (hframe hre))
    · exact .inr (.inr (.inr hstop))
  · have ht := h.token a
    split_ifs at ht <;> omega

/-- A message that comes while the worker has already seen an empty mailbox. -/
theorem no_lost_wakeup_late_message : ∃ w : Dispatch ℕ,
    (w.cells.lookup 0).any (fun c => c.mailbox.hasMessages && !c.scheduled) = true ∧
      (0 ∈ w.queue ∨ (∃ stack ∈ w.workers, ∃ phase, (0, phase) ∈ stack) ∨ 0 ∈ w.waking ∨
        0 ∈ w.stopping) := by
  obtain ⟨w, hr, hw⟩ := Machine.Reach.exists_of_exec (M := machine 5 1) (c := NoPanic 5)
    (P := fun w : Dispatch ℕ => (w.cells.lookup 0).any fun c =>
      c.mailbox.hasMessages && !c.scheduled && c.spawned && !c.terminated)
    [.register 0 ⟨.stop, false⟩ none, .install 0, .wake 0, .take 0,
      .advance 0 [⟨.ok, false, 0⟩, ⟨.ok, false, 0⟩], .advance 0 [], .advance 0 [], .enqueue 0 .message,
      .wake 0, .advance 0 []] rfl (by decide +kernel)
  cases hl : w.cells.lookup 0 with
  | none =>
    rw [hl] at hw
    cases hw
  | some cell =>
    rw [hl] at hw
    simp only [any_some, Bool.and_eq_true, Bool.not_eq_true'] at hw
    obtain ⟨⟨⟨hm, hs⟩, hsp⟩, ht⟩ := hw
    refine ⟨w, ?_, (no_lost_wakeup hr).1 0 cell hl hsp ht (.inl hm)⟩
    rw [hl]
    simp [hm, hs]

end Dispatch

end Kairo.Actor
