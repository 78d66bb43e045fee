import Kairo.Sharding.HandingOff

/-!
# What a turn of a region does to handoffs

A region lists a shard as handing off only after a command to hand it off, and as local only after a
message that may host it.  The steps of a handoff that a turn sends answer the message of the turn; and
the region has forgotten a shard that a turn reports as stopped.
-/

namespace Kairo.Sharding

open Kairo.Lib Turn ShardRegionActor ShardRegionRuntime ShardRegionMsg Finset

variable {M Ref : Type}

/-- A step or an answer of a handoff. -/
def RegionEffect.isHandOffStep : RegionEffect M Ref → Bool
  | .reply _ (.localHandOff _) | .reply _ (.completion _) | .remoteReply _ (.shardStopped _)
  | .handOffShard .. | .askStopper .. => true
  | _ => false

/-- Messages after which the region may list a shard as local. -/
def ShardRegionMsg.mayHost (selfRegion : RegionId) (shard : ShardId) : ShardRegionMsg M Ref → Bool
  | .markShardStarted s _ | .restartLocalShard s _ => s = shard
  | m => m.hosts selfRegion shard

lemma ShardRegionMsg.mayHost_of_hosts {selfRegion : RegionId} {shard : ShardId}
    {m : ShardRegionMsg M Ref} (h : m.hosts selfRegion shard = true) :
    m.mayHost selfRegion shard = true := by
  unfold mayHost
  split
  · cases h
  · cases h
  · exact h

/-- Bounds on the shards that a region lists, with no step of a handoff sent. -/
structure Calm (selfRegion : RegionId) (handing hosted : ShardId → Prop)
    (a : ShardRegionActor M Ref) (effects : List (RegionEffect M Ref)) : Prop where
  self : a.runtime.selfRegion = selfRegion
  handing : ∀ s ∈ a.runtime.handingOffShards, handing s
  hosted : ∀ s ∈ a.runtime.localShards, hosted s
  nested : a.runtime.handingOffShards ⊆ a.runtime.localShards
  quiet : ∀ e ∈ effects, RegionEffect.isHandOffStep e = false

namespace Calm

variable {selfRegion : RegionId} {H L : ShardId → Prop} {a b : ShardRegionActor M Ref}
  {effects : List (RegionEffect M Ref)} {s : ShardId} {e : RegionEffect M Ref}

lemma of_same (h : Calm selfRegion H L a effects)
    (hs : b.runtime.selfRegion = a.runtime.selfRegion)
    (hh : b.runtime.handingOffShards = a.runtime.handingOffShards)
    (hl : b.runtime.localShards = a.runtime.localShards) : Calm selfRegion H L b effects :=
  ⟨hs.trans h.self, fun s hm => h.handing s (hh ▸ hm), fun s hm => h.hosted s (hl ▸ hm),
    hh ▸ hl ▸ h.nested, h.quiet⟩

lemma send (h : Calm selfRegion H L a effects) (he : e.isHandOffStep = false) :
    Calm selfRegion H L a (effects ++ [e]) :=
  ⟨h.self, h.handing, h.hosted, h.nested,
    List.forall_mem_append.mpr ⟨h.quiet, List.forall_mem_singleton.mpr he⟩⟩

lemma plain : Plain AnyFailure (Calm selfRegion H L : ShardRegionActor M Ref → _ → Prop) where
  fails _ := trivial
  same hs h := h.of_same hs.selfRegion hs.handingOff hs.runtimeShards
  send {a ws e} he h := by
    refine h.send ?_
    unfold RegionEffect.isHandOffStep
    split <;> first | rfl | cases he

/-! ## Hosting -/

lemma of_sameLists {rt : ShardRegionRuntime M} (h : Calm selfRegion H L a effects)
    (hs : SameLists a.runtime rt) : Calm selfRegion H L { a with runtime := rt } effects :=
  h.of_same hs.self hs.handing hs.hosted

lemma markShardStarted (h : Calm selfRegion H L a effects) (hs : L s) :
    Calm selfRegion H L { a with runtime := (a.runtime.markShardStarted s).1 } effects := by
  obtain ⟨hself, hhanding, hlocal⟩ := lists_markShardStarted a.runtime s
  refine ⟨hself.trans h.self, fun t ht => h.handing t (hhanding ▸ ht), fun t ht => ?_, ?_, h.quiet⟩
  · have ht : t ∈ (a.runtime.markShardStarted s).1.localShards := ht
    rw [hlocal] at ht
    rcases mem_insert.mp ht with rfl | ht
    · exact hs
    · exact h.hosted t ht
  · rw [hhanding, hlocal]
    exact h.nested.trans (subset_insert _ _)

lemma keeps_sent (he : e.isHandOffStep = false) :
    Keeps AnyFailure (Calm selfRegion H L) (Turn.send e : RegionTurn M Ref Unit) :=
  .send fun _ _ h => h.send he

lemma keeps_same {f : ShardRegionActor M Ref → ShardRegionActor M Ref}
    (hf : ∀ a, (f a).runtime = a.runtime) :
    Keeps AnyFailure (Calm selfRegion H L) (update f : RegionTurn M Ref Unit) :=
  .update fun a _ h => h.of_same (by rw [hf a]) (by rw [hf a]) (by rw [hf a])

/-- Only shards that may be hosted are started. -/
def Starts (selfRegion : RegionId) (H L : ShardId → Prop) (starts : Option ShardId)
    (a : ShardRegionActor M Ref) (effects : List (RegionEffect M Ref)) : Prop :=
  Calm selfRegion H L a effects ∧ ∀ t ∈ starts, L t

lemma plain_starts (starts : Option ShardId) :
    Plain AnyFailure (Starts selfRegion H L starts : ShardRegionActor M Ref → _ → Prop) where
  fails _ := trivial
  same hs h := ⟨plain.same hs h.1, h.2⟩
  send he h := ⟨plain.send he h.1, h.2⟩

lemma keeps_spawnLocalShard (env : RegionEnv) (s : ShardId) : Keeps AnyFailure
    (Calm selfRegion H L) (spawnLocalShard env s : RegionTurn M Ref Unit) := by
  refine .read fun a => ?_
  split
  · exact .pure _
  · exact .bind (.check trivial) fun _ => .bind (keeps_sent rfl) fun _ => keeps_same fun _ => rfl

lemma keeps_markShardStarted (hs : L s) : Keeps AnyFailure (Calm selfRegion H L)
    (withRuntime (·.markShardStarted s) : RegionTurn M Ref _) :=
  .updateGet fun _ _ h => h.markShardStarted hs

def hosting (selfRegion : RegionId) (H L : ShardId → Prop) : Hosting M Ref where
  holds := Calm selfRegion H L
  opens := Starts selfRegion H L
  spawned s := Starts selfRegion H L (some s)
  homes s region a ws := Calm selfRegion H L a ws ∧ (region = selfRegion → L s)
  plain := plain
  plain_opens := plain_starts
  of_opens h := h.1
  deliver h := h.send rfl
  forward h := h.send rfl
  requests _ h := h.of_same rfl rfl rfl
  requests_opens _ h := ⟨h.1.of_same rfl rfl rfl, h.2⟩
  route s message h := h.of_sameLists (sameLists_route _ s message)
  host := hostsShard of_sameLists
  spawn env s := .assume (fun _ _ h => h.2) fun hL =>
    (keeps_spawnLocalShard env s).weaken (fun _ _ h => h.1) (fun _ _ _ h => ⟨h, hL⟩) fun _ _ _ h => h
  mark s := .assume (fun _ _ h => h.2 s rfl) fun hs =>
    (keeps_markShardStarted hs).pre fun _ _ h => h.1
  record := recordsHome (P := Calm selfRegion H L) of_sameLists Calm.self

lemma starts_of (h : Calm selfRegion H L a effects) (hs : L s) :
    Starts selfRegion H L (some s) a effects :=
  ⟨h, fun _ ht => Option.some.inj ht ▸ hs⟩

lemma keeps_restart (env : RegionEnv) (hs : L s) (generation : ℕ) : Keeps AnyFailure
    (Calm selfRegion H L) (restartLocalShard env s generation : RegionTurn M Ref Unit) := by
  refine .read fun a => ?_
  split
  · exact .pure _
  · refine .bind (keeps_same fun _ => rfl) fun _ => ?_
    split
    · exact keeps_same fun _ => rfl
    · split
      · exact .pure _
      · exact .bind (((hosting selfRegion H L).hostsShardTurn env s).pre fun _ _ h => h.starts_of hs)
          fun _ => .pure _

lemma forget (h : Calm selfRegion H L a effects) (s : ShardId) :
    Calm selfRegion H L { a with
      runtime := a.runtime.markShardStopped s
      localShards := a.localShards.erase s } effects := by
  obtain ⟨hself, hhanding, hlocal⟩ := lists_markShardStopped a.runtime s
  refine ⟨hself.trans h.self, fun t ht => h.handing t ?_, fun t ht => h.hosted t ?_, ?_, h.quiet⟩
  · exact mem_of_mem_erase (hhanding ▸ ht)
  · exact mem_of_mem_erase (hlocal ▸ ht)
  · rw [hhanding, hlocal]
    exact erase_subset_erase s h.nested

lemma keeps_forgetShard (s : ShardId) :
    Keeps AnyFailure (Calm selfRegion H L) (forgetShard s : RegionTurn M Ref Unit) :=
  .update fun _ _ h => h.forget s

lemma keeps_markLocalShardStopped (s : ShardId) : Keeps AnyFailure (Calm selfRegion H L)
    (markLocalShardStopped s : RegionTurn M Ref Unit) := by
  refine .read fun a => .bind (keeps_forgetShard s) fun _ => ?_
  split
  · exact .bind (.updateGet fun _ _ h => h.of_same rfl rfl rfl) fun _ => keeps_sent rfl
  · exact .pure _

lemma keeps_suppress (s : ShardId) : Keeps AnyFailure (Calm selfRegion H L)
    (suppressPendingLocalRestart s : RegionTurn M Ref Unit) :=
  keeps_same fun a => by split <;> rfl

end Calm

/-! ## Steps of a handoff -/

def Forgotten (a : ShardRegionActor M Ref) (s : ShardId) : Prop :=
  s ∉ a.runtime.handingOffShards ∧ s ∉ a.runtime.localShards

/-- A step of a handoff belongs to the message of the turn, and what it reports as stopped the region
has forgotten. -/
def Answers (m : ShardRegionMsg M Ref) (a : ShardRegionActor M Ref) : RegionEffect M Ref → Prop
  | .reply to' (.localHandOff plan) => ∃ s stop other, m = .handOffToLocalShard s stop to' other ∧
    ∀ t stopped dropped, plan = .replyShardStopped t stopped dropped → t = s ∧ Forgotten a s
  | .reply to' (.completion plan) =>
    (∃ s timeout, m = .completeLocalShardHandOff s timeout to') ∧
    (∃ t reason, plan = .failed t reason) ∨
      ∃ s result, m = .localShardHandOffStopperResult s result to' ∧
        ∀ t stopped, plan = .completed t stopped → t = s ∧ Forgotten a s
  | .remoteReply to' (.shardStopped t) => m.wireReply = some to' ∧ Forgotten a t
  | .handOffShard _ _ to' => (∃ s stop other r, m = .handOffToLocalShard s stop other r ∧ to' = .ref
    r) ∨
    ∃ s reply timeout, m = .remoteHandOff s reply ∧ to' = .observed timeout reply
  | .askStopper t _ to' => (∃ timeout r, m = .completeLocalShardHandOff t timeout r ∧
      to' = .completion r) ∨
    ∃ plan timeout reply, m = .remoteLocalShardHandOffObserved plan timeout reply ∧ to' = .remote reply
  | _ => True

/-- The end of a turn that started with `a₀`. -/
structure AfterTurn (m : ShardRegionMsg M Ref) (a₀ a : ShardRegionActor M Ref)
    (effects : List (RegionEffect M Ref)) : Prop where
  self : a.runtime.selfRegion = a₀.runtime.selfRegion
  handing : ∀ s ∈ a.runtime.handingOffShards,
    s ∈ a₀.runtime.handingOffShards ∨ m.handsOff = some s
  hosted : ∀ s ∈ a.runtime.localShards,
    s ∈ a₀.runtime.localShards ∨ m.mayHost a₀.runtime.selfRegion s = true
  nested : a.runtime.handingOffShards ⊆ a.runtime.localShards
  answers : ∀ e ∈ effects, Answers m a e

section AfterTurn

variable {m : ShardRegionMsg M Ref} {a₀ a b : ShardRegionActor M Ref}
  {effects : List (RegionEffect M Ref)} {s : ShardId} {e : RegionEffect M Ref}

lemma answers_of_quiet (he : e.isHandOffStep = false) : Answers m a e := by
  unfold Answers
  split <;> first | cases he | trivial

lemma Forgotten.of_sub (h : Forgotten a s)
    (hh : b.runtime.handingOffShards ⊆ a.runtime.handingOffShards)
    (hl : b.runtime.localShards ⊆ a.runtime.localShards) : Forgotten b s :=
  ⟨fun hm => h.1 (hh hm), fun hm => h.2 (hl hm)⟩

lemma Answers.of_sub (h : Answers m a e)
    (hh : b.runtime.handingOffShards ⊆ a.runtime.handingOffShards)
    (hl : b.runtime.localShards ⊆ a.runtime.localShards) : Answers m b e := by
  unfold Answers at h ⊢
  split at h
  · obtain ⟨s, stop, other, hm, hp⟩ := h
    exact ⟨s, stop, other, hm, fun t u d hc => (hp t u d hc).imp_right (·.of_sub hh hl)⟩
  · refine h.imp_right fun ⟨s, result, hm, hp⟩ => ⟨s, result, hm, fun t u hc => ?_⟩
    exact (hp t u hc).imp_right (·.of_sub hh hl)
  · exact h.imp_right (·.of_sub hh hl)
  · exact h
  · exact h
  · trivial

lemma answers_step {stopped : Option ShardId} (he : HandOffStep m e stopped)
    (hs : ∀ s ∈ stopped, Forgotten a s) : Answers m a e := by
  cases he with
  | planned => exact answers_of_quiet rfl
  | localPlan h =>
    refine ⟨_, _, _, rfl, fun t u d hc => ?_⟩
    subst hc
    exact ⟨h _ rfl, h _ rfl ▸ hs _ rfl⟩
  | forwarded => exact .inl ⟨_, _, _, _, rfl, rfl⟩
  | observed => exact .inr ⟨_, _, _, rfl, rfl⟩
  | stopped h => exact ⟨h, hs _ rfl⟩
  | asked => exact .inl ⟨_, _, rfl, rfl⟩
  | missing => exact .inl ⟨⟨_, _, rfl⟩, _, _, rfl⟩
  | askedRemote => exact .inr ⟨_, _, _, rfl, rfl⟩
  | completed =>
    refine .inr ⟨_, _, rfl, fun t u hc => ?_⟩
    cases hc
    exact ⟨rfl, hs _ rfl⟩
  | failed => exact .inr ⟨_, _, rfl, nofun⟩

def Starting (a₀ a : ShardRegionActor M Ref) (effects : List (RegionEffect M Ref)) : Prop :=
  a = a₀ ∧ effects = [] ∧ a₀.runtime.handingOffShards ⊆ a₀.runtime.localShards

abbrev TurnFailed (m : ShardRegionMsg M Ref) (a₀ : ShardRegionActor M Ref) (e : RegionFailure)
    (a : ShardRegionActor M Ref) (effects : List (RegionEffect M Ref)) : Prop :=
  AnyFailure e ∧ AfterTurn m a₀ a effects

lemma Starting.afterTurn (h : Starting a₀ a effects) : AfterTurn m a₀ a effects := by
  obtain ⟨rfl, rfl, hn⟩ := h
  exact ⟨rfl, fun _ hs => .inl hs, fun _ hs => .inl hs, hn, nofun⟩

lemma AfterTurn.send (h : AfterTurn m a₀ a effects) (he : Answers m a e) :
    AfterTurn m a₀ a (effects ++ [e]) :=
  ⟨h.self, h.handing, h.hosted, h.nested,
    List.forall_mem_append.mpr ⟨h.answers, List.forall_mem_singleton.mpr he⟩⟩

lemma AfterTurn.of_same (h : AfterTurn m a₀ a effects)
    (hs : b.runtime.selfRegion = a.runtime.selfRegion)
    (hh : b.runtime.handingOffShards = a.runtime.handingOffShards)
    (hl : b.runtime.localShards = a.runtime.localShards) : AfterTurn m a₀ b effects :=
  ⟨hs.trans h.self, fun s hm => h.handing s (hh ▸ hm), fun s hm => h.hosted s (hl ▸ hm),
    hh ▸ hl ▸ h.nested, fun e he => (h.answers e he).of_sub hh.subset hl.subset⟩

lemma plain_afterTurn : Plain AnyFailure (AfterTurn m a₀) where
  fails _ := trivial
  same hs h := h.of_same hs.selfRegion hs.handingOff hs.runtimeShards
  send {a ws e} he h := by
    refine h.send (answers_of_quiet ?_)
    unfold RegionEffect.isHandOffStep
    split <;> first | rfl | cases he

lemma afterTurn_of_calm {α : Type} {t : RegionTurn M Ref α}
    (h : Keeps AnyFailure (Calm a₀.runtime.selfRegion (· ∈ a₀.runtime.handingOffShards)
      fun s => s ∈ a₀.runtime.localShards ∨ m.mayHost a₀.runtime.selfRegion s = true) t) :
    Triple (Starting a₀) t (fun _ => AfterTurn m a₀) (TurnFailed m a₀) := by
  have hcalm : ∀ {a : ShardRegionActor M Ref} {ws}, Calm a₀.runtime.selfRegion
      (· ∈ a₀.runtime.handingOffShards)
      (fun s => s ∈ a₀.runtime.localShards ∨ m.mayHost a₀.runtime.selfRegion s = true) a ws →
      AfterTurn m a₀ a ws := fun hc =>
    ⟨hc.self, fun s hs => .inl (hc.handing s hs), hc.hosted, hc.nested,
      fun e he => answers_of_quiet (hc.quiet e he)⟩
  refine h.weaken (fun a ws hs => ?_) (fun _ _ _ hc => hcalm hc) fun _ _ _ hc => ⟨trivial, hcalm hc.2⟩
  obtain ⟨rfl, rfl, hn⟩ := hs
  exact ⟨rfl, fun _ hs => hs, fun _ hs => .inl hs, hn, nofun⟩

lemma AfterTurn.forget (h : AfterTurn m a₀ a effects) (s : ShardId) :
    AfterTurn m a₀ { a with
      runtime := a.runtime.markShardStopped s
      localShards := a.localShards.erase s } effects ∧
    Forgotten { a with
      runtime := a.runtime.markShardStopped s
      localShards := a.localShards.erase s } s := by
  obtain ⟨hself, hhanding, hlocal⟩ := lists_markShardStopped a.runtime s
  have hh : (a.runtime.markShardStopped s).handingOffShards ⊆ a.runtime.handingOffShards :=
    hhanding.subset.trans (erase_subset _ _)
  have hl : (a.runtime.markShardStopped s).localShards ⊆ a.runtime.localShards :=
    hlocal.subset.trans (erase_subset _ _)
  refine ⟨⟨hself.trans h.self, fun t ht => h.handing t (hh ht), fun t ht => h.hosted t (hl ht), ?_,
    fun e he => (h.answers e he).of_sub hh hl⟩, ?_, ?_⟩
  · rw [hhanding, hlocal]
    exact erase_subset_erase s h.nested
  · rw [hhanding]
    exact notMem_erase s _
  · rw [hlocal]
    exact notMem_erase s _

def AfterTurn.handingOff (m : ShardRegionMsg M Ref) (a₀ : ShardRegionActor M Ref) : HandingOff m where
  fails := AnyFailure
  start := Starting a₀
  holds := AfterTurn m a₀
  ready _ a effects := AfterTurn m a₀ a effects ∧ effects = []
  due _ := AfterTurn m a₀
  gone s a effects := AfterTurn m a₀ a effects ∧ Forgotten a s
  plain := plain_afterTurn
  of_start h := h.afterTurn
  of_due h := h
  of_gone h := h.1
  readies _ _ h := ⟨h.afterTurn, h.2.1⟩
  dues _ h := h.afterTurn
  suppresses _ := by
    refine .update fun a ws h => ⟨?_, h.2.1⟩
    refine h.afterTurn.of_same ?_ ?_ ?_ <;> (split <;> rfl)
  plans {s} hm := by
    refine .updateGet fun a ws ⟨h, hws⟩ => ?_
    obtain ⟨hself, hlocal, ⟨hs, dropped, hplan, hhanding⟩ | ⟨hs, dropped, hplan, hhanding⟩⟩ :=
      lists_handoff a.runtime s
    · refine .inl ⟨⟨dropped, hplan⟩, hself.trans h.self, fun t ht => ?_,
        fun t ht => h.hosted t (hlocal ▸ ht), ?_, ?_⟩
      · have ht : t ∈ (a.runtime.handoff s).1.handingOffShards := ht
        rw [hhanding] at ht
        rcases Finset.mem_insert.mp ht with rfl | ht
        · exact .inr hm
        · exact h.handing t ht
      · rw [hhanding, hlocal]
        exact Finset.insert_subset hs h.nested
      · rw [hws]
        exact nofun
    · refine .inr ⟨⟨dropped, hplan⟩, h.of_same hself hhanding hlocal, ?_, ?_⟩
      · rw [hhanding]
        exact fun hm => hs (h.nested hm)
      · rw [hlocal]
        exact hs
  stop h := h.send (answers_of_quiet rfl)
  forget h := h.forget _
  step {e a ws} he h := h.send (answers_step he nofun)
  answer he h := h.1.send (answers_step he fun _ ht => Option.some.inj ht ▸ h.2)

variable (env : RegionEnv)

theorem receive_afterTurn (m : ShardRegionMsg M Ref) :
    Triple (Starting a₀) (ShardRegionActor.receive env m) (fun _ => AfterTurn m a₀)
      (TurnFailed m a₀) := by
  by_cases hh : m.isHandOff = true
  · exact (AfterTurn.handingOff m a₀).receives env hh
  have hhost {s : ShardId} (hm : m.mayHost a₀.runtime.selfRegion s = true) :
      s ∈ a₀.runtime.localShards ∨ m.mayHost a₀.runtime.selfRegion s = true := .inr hm
  refine afterTurn_of_calm ((Calm.hosting a₀.runtime.selfRegion _ _).receives env hh id
    (fun h s hs => h.starts_of (hhost ?_)) (fun h x hx => ⟨h, fun hr => hhost ?_⟩)
    (fun s r hm => Calm.keeps_markShardStarted (hhost ?_)) Calm.keeps_suppress
    Calm.keeps_markLocalShardStopped fun s g hm => Calm.keeps_restart env (hhost ?_) g)
  · exact mayHost_of_hosts (decide_eq_true (.inl hs))
  · exact mayHost_of_hosts (decide_eq_true (.inr (hr ▸ hx)))
  · simp [hm, mayHost]
  · simp [hm, mayHost]

end AfterTurn

end Kairo.Sharding
