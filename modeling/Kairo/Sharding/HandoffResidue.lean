import Kairo.Sharding.HandoffSystem
import Kairo.Sharding.ShardReplies

/-!
# What a handoff leaves behind

A worker that has told the owner waits until it is told that the shard has stopped.  When the owner
itself reports the stop, it has forgotten the shard.  But the worker also takes the plan of the shard
actor for a report: a shard without entities plans to stop at once, the worker finishes with ok, and
the owner lists the shard as local and as handing off for ever.  Timeouts and failures after the
command leave the same residue.  `Careful` are the steps where waiting workers end only on a report of
the owner.
-/

namespace Kairo.Sharding

open Finmap hiding lookup_insert
open Kairo.Lib Turn ShardingSystem HandoffWorker List FinMap Option WorkerEffect

variable {M : Type}

namespace Packet

/-- The worker of a command to hand off. -/
def commandOf : Packet M → Option ℕ
  | .region _ (.handOffToLocalShard _ _ (.worker id) _) => some id
  | .region _ (.remoteHandOff _ (.worker id)) => some id
  | _ => none

/-- Messages to a region, and the notices of its stop. -/
def isAbout (self : RegionId) : Packet M → Bool
  | .region target _ => target = self
  | .worker _ (.regionTerminated stopped) => stopped = self
  | .coordinator (.regionStopped stopped) => stopped = self
  | .coordinator (.remoteRegionStopped stopped) => stopped = self
  | .coordinator (.terminated path) => path = self
  | _ => false

end Packet

namespace ShardingSystem

variable (σ : ShardingSystem M)

/-- The workers whose commands to hand off are in flight. -/
def commands : List ℕ := σ.inFlight.filterMap Packet.commandOf

/-- The messages in flight and those that the coordinator has stashed. -/
def pending : List (Packet M) :=
  σ.inFlight ++ ((σ.coordinator.map (·.stashed)).getD []).map .coordinator

/-! ## Careful steps -/

def waits (w : HandoffWorker M) : Bool := w.phase = .awaitingShardStopped

def noneWaits : Bool := ∀ id ∈ σ.workers.keys, (σ.workers.lookup id).all fun w => !waits w

/-- An answer in wire form is for the worker that is active for its shard. -/
def reachesItsWorker (c : ShardCoordinator M) : ShardCoordinatorMsg → Bool
  | .remoteShardStopped id _ shard => c.activeWorker shard = none ∨ c.activeWorker shard = some id
  | _ => true

/-- A region hosts neither a shard whose handoff from there waits, nor the shard of the last successful
handoff from there. -/
def hostsCarefully (region : RegionId) (a : ShardRegionActor M HandoffRef)
    (m : ShardRegionMsg M HandoffRef) : Bool :=
  (∀ id ∈ σ.workers.keys, (σ.workers.lookup id).all fun w =>
    waits w → w.plan.fromRegion = region → m.mayHost a.runtime.selfRegion w.plan.shard = false) ∧
  ∀ shard ∈ σ.finished.keys, σ.finished.lookup shard = some (region, true) →
    m.mayHost a.runtime.selfRegion shard = false

/-- The turn that a message starts is careful: a waiting worker ends only on a report of the owner, and
the coordinator does not stop while a worker waits. -/
def carefulTurn (env : SystemEnv) : Packet M → Bool
  | .worker id m => (σ.workers.lookup id).all fun w =>
    waits w → (w.receive env.rejecting m).1.phase = .done → m.reportsStop w.plan
  | .region region m => (σ.regions.lookup region).all fun a => σ.hostsCarefully region a m
  | .coordinator m => σ.coordinator.all fun c =>
    reachesItsWorker c m ∧ (coordinatorEnds env.coordinator m c → σ.noneWaits)
  | .shard .. => true

/-- A careful step; a region starts again only when no message to it and no notice of its stop is
left. -/
def careful : SystemAction M → Bool
  | .deliver position env => σ.inFlight[position]?.all (σ.carefulTurn env)
  | .startRegion region _ => σ.pending.all fun packet => !packet.isAbout region
  | _ => true

/-! ## What holds of the messages -/

/-- The worker has told the owner, and its command has been taken. -/
def Answered (id : ℕ) : Prop :=
  ∃ w, σ.workers.lookup id = some w ∧ w.unsent = false ∧ id ∉ σ.commands

/-- A reference in a message at a region about a handoff from there, after the command. -/
def Later (region : RegionId) (ref : HandoffRef) : Prop :=
  ∀ id, ref = .worker id →
    σ.Answered id ∧ ∀ w, σ.workers.lookup id = some w → w.plan.fromRegion = region

/-- The owner does not list the shard that the worker waits for. -/
def Gone (id : ℕ) (shard : ShardId) : Prop :=
  ∀ w, σ.workers.lookup id = some w → w.phase = .awaitingShardStopped → w.plan.shard = shard →
    ∀ a, σ.regions.lookup w.plan.fromRegion = some a → shard ∉ a.runtime.localShards

/-- A reference in a command to hand off a shard. -/
def Commanding (region : RegionId) (shard : ShardId) (ref : HandoffRef) : Prop :=
  ∃ id w, ref = .worker id ∧ σ.workers.lookup id = some w ∧ w.unsent = false ∧
    w.plan.fromRegion = region ∧ w.plan.shard = shard

def SoundRegion (region : RegionId) : ShardRegionMsg M HandoffRef → Prop
  | .handOff .. => False
  | .handOffToLocalShard shard _ ref ref' => ref' = ref ∧ σ.Commanding region shard ref
  | .remoteHandOff shard ref => σ.Commanding region shard ref
  | .completeLocalShardHandOff _ _ ref | .localShardHandOffStopperResult _ _ ref
  | .remoteLocalShardHandOffObserved _ _ ref | .remoteLocalShardHandOffStopperResult _ _ ref =>
    σ.Later region ref
  | _ => True

def SoundWorker (id : ℕ) : HandoffWorkerMsg M → Prop
  | .localHandOffForwarded plan => σ.Answered id ∧
    ∀ shard stopped dropped, plan = .replyShardStopped shard stopped dropped → σ.Gone id shard
  | .localHandOffCompleted plan => σ.Answered id ∧
    ∀ shard stopped, plan = .completed shard stopped → σ.Gone id shard
  | .shardHandOffObserved _ => σ.Answered id
  | .remoteShardStopped _ shard => σ.Answered id ∧ σ.Gone id shard
  | .regionTerminated region => region ∉ σ.regions
  | _ => True

def SoundCoordinator : ShardCoordinatorMsg → Prop
  | .remoteShardStopped id _ shard => σ.Answered id ∧ σ.Gone id shard
  | .regionStopped region => region ∉ σ.regions
  | .remoteRegionStopped region => region ∉ σ.regions
  | .terminated path => path ∉ σ.regions
  | .registerLocalRegion region (some path) => region = path
  | _ => True

def Sound : Packet M → Prop
  | .region region m => σ.SoundRegion region m
  | .shard region _ _ m => m.Bears (σ.Later region)
  | .worker id m => σ.SoundWorker id m
  | .coordinator m => σ.SoundCoordinator m

/-! ## What steps keep of it -/

/-- Workers that have told the owner keep their plans and do not wait again, their commands are not sent
again, and the shards they wait for do not come back. -/
structure Persists (σ σ' : ShardingSystem M) : Prop where
  workers : ∀ id w, σ.workers.lookup id = some w → w.unsent = false →
    ∃ w', σ'.workers.lookup id = some w' ∧ w'.plan = w.plan ∧ w'.unsent = false ∧
      (w'.phase = .awaitingShardStopped → w.phase = .awaitingShardStopped)
  commands : ∀ id w, σ.workers.lookup id = some w → w.unsent = false → id ∈ σ'.commands →
    id ∈ σ.commands
  hosted : ∀ id w, σ'.workers.lookup id = some w → w.phase = .awaitingShardStopped →
    ∀ a', σ'.regions.lookup w.plan.fromRegion = some a' → w.plan.shard ∈ a'.runtime.localShards →
      ∃ a, σ.regions.lookup w.plan.fromRegion = some a ∧ w.plan.shard ∈ a.runtime.localShards

variable {σ} {σ' : ShardingSystem M} {id : ℕ} {region : RegionId} {shard : ShardId} {ref : HandoffRef}
  {p : Packet M} {P Q : HandoffRef → Prop}

lemma Answered.mono (h : σ.Answered id) (hp : Persists σ σ') : σ'.Answered id := by
  obtain ⟨w, hw, hu, hc⟩ := h
  obtain ⟨w', hw', -, hu', -⟩ := hp.workers id w hw hu
  exact ⟨w', hw', hu', fun hm => hc (hp.commands id w hw hu hm)⟩

lemma Later.mono (h : σ.Later region ref) (hp : Persists σ σ') : σ'.Later region ref := by
  intro id hid
  obtain ⟨⟨w, hw, hu, hc⟩, hr⟩ := h id hid
  refine ⟨Answered.mono ⟨w, hw, hu, hc⟩ hp, fun w' hw' => ?_⟩
  obtain ⟨w'', hw'', hplan, -, -⟩ := hp.workers id w hw hu
  rw [hw''] at hw'
  cases hw'
  rw [hplan]
  exact hr w hw

lemma Gone.mono (h : σ.Gone id shard) (ha : σ.Answered id) (hp : Persists σ σ') :
    σ'.Gone id shard := by
  obtain ⟨w, hw, hu, -⟩ := ha
  obtain ⟨w', hw', hplan, -, hphase⟩ := hp.workers id w hw hu
  intro x hx hwait hs a' ha' hm
  rw [hw'] at hx
  cases hx
  subst hs
  obtain ⟨a, ha, hm⟩ := hp.hosted id w' hw' hwait a' ha' hm
  rw [hplan] at ha hm
  exact h w hw (hphase hwait) (by rw [hplan]) a ha (hplan ▸ hm)

lemma Commanding.mono (h : σ.Commanding region shard ref) (hp : Persists σ σ') :
    σ'.Commanding region shard ref := by
  obtain ⟨id, w, hid, hw, hu, hr, hs⟩ := h
  obtain ⟨w', hw', hplan, hu', -⟩ := hp.workers id w hw hu
  exact ⟨id, w', hid, hw', hu', hplan ▸ hr, hplan ▸ hs⟩

lemma SoundRegion.mono {m : ShardRegionMsg M HandoffRef} (h : σ.SoundRegion region m)
    (hp : Persists σ σ') : σ'.SoundRegion region m := by
  unfold SoundRegion at h ⊢
  split at h
  · exact h
  · exact ⟨h.1, h.2.mono hp⟩
  · exact h.mono hp
  · exact h.mono hp
  · exact h.mono hp
  · exact h.mono hp
  · exact h.mono hp
  · trivial

lemma SoundWorker.mono {m : HandoffWorkerMsg M} (h : σ.SoundWorker id m) (hp : Persists σ σ')
    (hr : ∀ region, (Packet.worker id m).isAbout region = true → region ∉ σ.regions →
      region ∉ σ'.regions) : σ'.SoundWorker id m := by
  unfold SoundWorker at h ⊢
  split at h
  · exact ⟨h.1.mono hp, fun s u d hplan => (h.2 s u d hplan).mono h.1 hp⟩
  · exact ⟨h.1.mono hp, fun s u hplan => (h.2 s u hplan).mono h.1 hp⟩
  · exact h.mono hp
  · exact ⟨h.1.mono hp, h.2.mono h.1 hp⟩
  · exact hr _ (by simp [Packet.isAbout]) h
  · trivial

lemma SoundCoordinator.mono {m : ShardCoordinatorMsg} (h : σ.SoundCoordinator m)
    (hp : Persists σ σ')
    (hr : ∀ region, (Packet.coordinator m : Packet M).isAbout region = true → region ∉ σ.regions →
      region ∉ σ'.regions) : σ'.SoundCoordinator m := by
  unfold SoundCoordinator at h ⊢
  split at h
  · exact ⟨h.1.mono hp, h.2.mono h.1 hp⟩
  · exact hr _ (by simp [Packet.isAbout]) h
  · exact hr _ (by simp [Packet.isAbout]) h
  · exact hr _ (by simp [Packet.isAbout]) h
  · exact h
  · trivial

lemma bears_mono (hPQ : ∀ r, P r → Q r) {m : ShardMsg M HandoffRef} (h : m.Bears P) :
    m.Bears Q := by
  unfold ShardMsg.Bears at h ⊢
  split at h
  · exact hPQ _ h
  · exact hPQ _ h
  · trivial

lemma Sound.mono (h : σ.Sound p) (hp : Persists σ σ')
    (hr : ∀ region, p.isAbout region = true → region ∉ σ.regions → region ∉ σ'.regions) :
    σ'.Sound p := by
  cases p with
  | region region m => exact SoundRegion.mono h hp
  | shard region shard uid m => exact bears_mono (fun _ hl => hl.mono hp) h
  | worker id m => exact SoundWorker.mono h hp hr
  | coordinator m => exact SoundCoordinator.mono h hp hr

lemma bearing_mono (hPQ : ∀ r, P r → Q r) {a : EntityShard M HandoffRef} (h : Bearing P a []) :
    Bearing Q a [] :=
  ⟨fun m hm => bears_mono hPQ (h.stashed m hm), fun x hx => hPQ _ (h.pending x hx),
    fun x hx => hPQ _ (h.waiters x hx), fun e he => by cases he⟩

def Stored (P : RegionId → HandoffRef → Prop)
    (shards : FinMap (RegionId × ShardId) (ℕ × EntityShard M HandoffRef)) : Prop :=
  ∀ region s x, shards.lookup (region, s) = some x → Bearing (P region) x.2 []

variable {P : RegionId → HandoffRef → Prop}
  {shards : FinMap (RegionId × ShardId) (ℕ × EntityShard M HandoffRef)} {asks : List StopperAsk}
  {q : Packet M} {packets : List (Packet M)}

lemma Stored.insert (h : Stored P shards) {x : ℕ × EntityShard M HandoffRef}
    (hx : Bearing (P region) x.2 []) : Stored P (shards.insert (region, shard) x) := by
  intro r s y hy
  rcases of_lookup_insert hy with ⟨hk, rfl⟩ | hy
  · cases hk
    exact hx
  · exact h r s y hy

lemma Stored.erase (h : Stored P shards) (k : RegionId × ShardId) : Stored P (shards.erase k) :=
  fun r s y hy => h r s y (of_lookup_erase hy)

/-! ## The invariant -/

structure Inv (σ : ShardingSystem M) : Prop where
  fresh : ∀ c, σ.coordinator = some c → ∀ id ∈ σ.workers, id < c.next
  watched : ∀ c, σ.coordinator = some c → ∀ path region,
    c.regionWatchByPath.lookup path = some region → region = path
  nested : ∀ region a, σ.regions.lookup region = some a →
    a.runtime.handingOffShards ⊆ a.runtime.localShards
  handing : ∀ region a, σ.regions.lookup region = some a → ∀ s ∈ a.runtime.handingOffShards,
    ∃ id w, σ.workers.lookup id = some w ∧ w.phase = .awaitingShardStopped ∧
      w.plan.fromRegion = region ∧ w.plan.shard = s
  sound : ∀ p ∈ σ.pending, σ.Sound p
  once : σ.commands.Nodup
  commanded : ∀ id ∈ σ.commands, ∀ w, σ.workers.lookup id = some w →
    w.plan.fromRegion ∈ σ.regions → w.phase = .awaitingShardStopped
  asked : ∀ x ∈ σ.asks, σ.Later x.region x.replyTo.target
  stored : ∀ region s x, σ.shards.lookup (region, s) = some x → Bearing (σ.Later region) x.2 []
  released : ∀ s region, σ.finished.lookup s = some (region, true) →
    ∀ a, σ.regions.lookup region = some a → s ∉ a.runtime.localShards

lemma Inv.asked_mono (h : Inv σ) (hp : Persists σ σ') :
    ∀ x ∈ σ.asks, σ'.Later x.region x.replyTo.target :=
  fun x hx => (h.asked x hx).mono hp

lemma Inv.stored_mono (h : Inv σ) (hp : Persists σ σ') : Stored σ'.Later σ.shards :=
  fun r s x hx => bearing_mono (fun _ hl => hl.mono hp) (h.stored r s x hx)

/-- A command in flight is one of a worker that has told its owner, and goes to the owner. -/
lemma Inv.command (h : Inv σ) (hid : id ∈ σ.commands) : ∃ w, σ.workers.lookup id = some w ∧
    w.unsent = false ∧ ∃ p ∈ σ.inFlight, p.isAbout w.plan.fromRegion = true := by
  obtain ⟨p, hp, hc⟩ := mem_filterMap.mp hid
  have hs := h.sound p (mem_append_left _ hp)
  unfold Packet.commandOf at hc
  split at hc
  · cases hc
    obtain ⟨-, id', w, hid', hw, hu, hr, -⟩ := hs
    cases hid'
    exact ⟨w, hw, hu, _, hp, by simp [Packet.isAbout, hr]⟩
  · cases hc
    obtain ⟨id', w, hid', hw, hu, hr, -⟩ := hs
    cases hid'
    exact ⟨w, hw, hu, _, hp, by simp [Packet.isAbout, hr]⟩
  · cases hc

lemma Inv.of_pool (h : Inv σ) {pool : List (Packet M)}
    (honce : (pool.filterMap Packet.commandOf).Nodup)
    (hcmd : ∀ id ∈ pool.filterMap Packet.commandOf, id ∈ σ.commands)
    (hsound : ∀ p ∈ pool, p ∈ σ.inFlight ∨ σ.Sound p) :
    Inv { σ with inFlight := pool } ∧ Persists σ { σ with inFlight := pool } := by
  have hp : Persists σ { σ with inFlight := pool } :=
    ⟨fun id w hid hu => ⟨w, hid, rfl, hu, fun h => h⟩, fun id _ _ _ hid => hcmd id hid,
      fun id w _ _ a ha hm => ⟨a, ha, hm⟩⟩
  refine ⟨⟨h.fresh, h.watched, h.nested, h.handing, fun p hm => ?_, honce,
    fun id hid => h.commanded id (hcmd id hid), h.asked_mono hp, h.stored_mono hp, h.released⟩, hp⟩
  have hs : σ.Sound p := by
    rcases mem_append.mp hm with hm | hm
    · exact (hsound p hm).elim (fun hm => h.sound p (mem_append_left _ hm)) id
    · exact h.sound p (mem_append_right _ hm)
  exact hs.mono hp fun region _ hn => hn

lemma Inv.refer (h : Inv σ) {shards : FinMap (RegionId × ShardId) (ℕ × EntityShard M HandoffRef)}
    (hasked : ∀ x ∈ asks, σ.Later x.region x.replyTo.target) (hstored : Stored σ.Later shards) :
    Inv { σ with asks := asks, shards := shards } :=
  ⟨h.fresh, h.watched, h.nested, h.handing, h.sound, h.once, h.commanded, hasked, hstored, h.released⟩

lemma perm_eraseIdx {xs : List (Packet M)} {i : ℕ} (h : xs[i]? = some p) :
    (p :: xs.eraseIdx i).Perm xs := by
  obtain ⟨hi, rfl⟩ := List.getElem?_eq_some_iff.mp h
  exact getElem_cons_eraseIdx_perm hi

lemma Inv.take (h : Inv σ) {i : ℕ} (hi : σ.inFlight[i]? = some p) :
    Inv { σ with inFlight := σ.inFlight.eraseIdx i } ∧
      Sound { σ with inFlight := σ.inFlight.eraseIdx i } p ∧ ∀ id, p.commandOf = some id →
        id ∉ commands { σ with inFlight := σ.inFlight.eraseIdx i } ∧
        ∀ w, σ.workers.lookup id = some w → w.plan.fromRegion ∈ σ.regions →
          w.phase = .awaitingShardStopped := by
  have hperm := perm_eraseIdx hi
  have hcommands : ((p :: σ.inFlight.eraseIdx i).filterMap Packet.commandOf).Perm σ.commands :=
    hperm.filterMap _
  have hsub : (σ.inFlight.eraseIdx i).Sublist σ.inFlight := eraseIdx_sublist _ _
  have hinv : Inv { σ with inFlight := σ.inFlight.eraseIdx i } ∧
      Persists σ { σ with inFlight := σ.inFlight.eraseIdx i } :=
    h.of_pool (h.once.sublist (hsub.filterMap _)) (fun id hid => (hsub.filterMap _).subset hid)
      fun q hq => .inl (hsub.subset hq)
  refine ⟨hinv.1, ?_, fun id hid => ⟨?_, ?_⟩⟩
  · have hmem : p ∈ σ.inFlight := hperm.subset mem_cons_self
    exact (h.sound p (mem_append_left _ hmem)).mono hinv.2 fun _ _ hn => hn
  · have hnodup := hcommands.nodup_iff.mpr h.once
    rw [filterMap_cons, hid] at hnodup
    exact (nodup_cons.mp hnodup).1
  · refine h.commanded id (hcommands.subset ?_)
    rw [filterMap_cons, hid]
    exact mem_cons_self

/-- Sound messages other than commands. -/
def Harmless (σ : ShardingSystem M) (packets : List (Packet M)) : Prop :=
  ∀ q ∈ packets, σ.Sound q ∧ q.commandOf = none

lemma harmless_nil : σ.Harmless [] := nofun

lemma harmless_one (hs : σ.Sound q) (hc : q.commandOf = none) : σ.Harmless [q] :=
  forall_mem_singleton.mpr ⟨hs, hc⟩

lemma harmless_flatMap {E : Type} {effects : List E} {packets : E → List (Packet M)}
    (h : ∀ e ∈ effects, σ.Harmless (packets e)) : σ.Harmless (effects.flatMap packets) := by
  intro q hq
  obtain ⟨e, he, hq⟩ := mem_flatMap.mp hq
  exact h e he q hq

lemma commands_push (hn : ∀ q ∈ packets, q.commandOf = none) :
    (σ.push packets).commands = σ.commands := by
  have : packets.filterMap Packet.commandOf = [] := filterMap_eq_nil_iff.mpr hn
  simp [commands, push, this]

lemma Inv.push (h : Inv σ) (hs : σ.Harmless packets) : Inv (σ.push packets) := by
  have hc := commands_push (σ := σ) fun q hq => (hs q hq).2
  refine (h.of_pool (hc.symm ▸ h.once : (σ.push packets).commands.Nodup)
    (fun id hid => (hc ▸ hid)) fun p hm => ?_).1
  rcases mem_append.mp hm with hm | hm
  · exact .inl hm
  · exact .inr (hs p hm).1

/-! ## Turns of regions -/

lemma later_of_commanding (hc : σ.Commanding region shard ref)
    (hn : ∀ id, ref = .worker id → id ∉ σ.commands) : σ.Later region ref := by
  obtain ⟨id, w, rfl, hw, hu, hr, -⟩ := hc
  intro id' hid
  cases hid
  refine ⟨⟨w, hw, hu, hn id rfl⟩, fun w' hw' => ?_⟩
  rw [hw] at hw'
  cases hw'
  exact hr

variable {a a' : ShardRegionActor M HandoffRef} {m : ShardRegionMsg M HandoffRef} {observed : Prop}
  {e : RegionEffect M HandoffRef}

lemma later_of_wireReply (hm : σ.SoundRegion region m) (hw : m.wireReply = some ref)
    (hn : ∀ id, (Packet.region region m).commandOf = some id → id ∉ σ.commands) :
    σ.Later region ref := by
  unfold ShardRegionMsg.wireReply at hw
  split at hw
  · cases hw
    refine later_of_commanding hm fun id hid => hn id ?_
    rw [hid]
    rfl
  · cases hw
    exact hm
  · cases hw
    exact hm
  · cases hw

lemma gone_of_forgotten {id : ℕ} (hl : σ.Later region (.worker id))
    (ha : σ.regions.lookup region = some a) (hf : Forgotten a shard) : σ.Gone id shard := by
  intro w hw _ _ x hx
  rw [(hl id rfl).2 w hw, ha] at hx
  cases hx
  exact hf.2

lemma sound_toShard {s : ShardId} {x : ShardMsg M HandoffRef} (hx : x.Bears (σ.Later region)) :
    σ.Harmless (toShard region a s x) := by
  unfold toShard
  split
  · exact harmless_one hx rfl
  · exact harmless_nil

lemma sound_lifecyclePackets (remote : Bool) (x : RegionToCoordinator) :
    σ.Harmless (lifecyclePackets region remote x) := by
  cases x with
  | regionStopped => exact harmless_nil
  | register | requestShardHome s | gracefulShutdownReq =>
    cases remote <;> exact harmless_one trivial rfl

lemma sound_regionPackets (hm : σ.SoundRegion region m)
    (hn : ∀ id, (Packet.region region m).commandOf = some id → id ∉ σ.commands)
    (ha : σ.regions.lookup region = some a) (he : Answers m a e) :
    σ.Harmless (regionPackets region a e) := by
  unfold regionPackets
  split
  · exact harmless_one trivial rfl
  · rename_i id plan
    obtain ⟨s, stop, other, rfl, hplan⟩ := he
    have hl : σ.Later region (.worker id) :=
      later_of_commanding hm.2 fun id' hid => hn id' (by cases hid; rfl)
    refine harmless_one ⟨(hl id rfl).1, fun t u d hp => ?_⟩ rfl
    obtain ⟨rfl, hf⟩ := hplan t u d hp
    exact gone_of_forgotten hl ha hf
  · rename_i id plan
    refine harmless_one ?_ rfl
    rcases he with ⟨⟨s, timeout, rfl⟩, t, reason, rfl⟩ | ⟨s, result, rfl, hplan⟩
    · exact ⟨(hm id rfl).1, nofun⟩
    · refine ⟨(hm id rfl).1, fun t u hp => ?_⟩
      obtain ⟨rfl, hf⟩ := hplan t u hp
      exact gone_of_forgotten hm ha hf
  · exact harmless_one trivial rfl
  · exact harmless_one trivial rfl
  · rename_i id s
    have hl := later_of_wireReply hm he.1 hn
    exact harmless_one ⟨(hl id rfl).1, gone_of_forgotten hl ha he.2⟩ rfl
  · exact harmless_one trivial rfl
  · exact sound_lifecyclePackets _ _
  · exact sound_toShard trivial
  · refine sound_toShard ?_
    rcases he with ⟨s, stop, other, r, rfl, rfl⟩ | ⟨s, reply, timeout, rfl, rfl⟩
    · have hl := later_of_commanding hm.2 fun id' hid => hn id' (by rw [hid]; rfl)
      exact hm.1 ▸ hl
    · have hl : σ.Later region reply :=
        later_of_commanding hm fun id' hid => hn id' (by rw [hid]; rfl)
      exact hl
  · refine sound_toShard ?_
    rcases he with ⟨timeout, r, rfl, rfl⟩ | ⟨plan, timeout, reply, rfl, rfl⟩ <;> exact hm
  · exact harmless_one trivial rfl
  · exact harmless_one trivial rfl
  · exact harmless_nil

lemma mem_of_lookup {K V : Type*} [DecidableEq K] {xs : FinMap K V} {k : K} {v : V}
    (h : xs.lookup k = some v) : k ∈ xs :=
  mem_iff_isSome.mpr (h ▸ rfl)

lemma not_hosted_waiting (hh : σ.hostsCarefully region a m = true) {w : HandoffWorker M}
    (hw : σ.workers.lookup id = some w) (hwait : w.phase = .awaitingShardStopped)
    (hr : w.plan.fromRegion = region) : m.mayHost a.runtime.selfRegion w.plan.shard = false := by
  simp only [hostsCarefully, decide_eq_true_eq] at hh
  have := hh.1 id (mem_keys.mpr (mem_of_lookup hw))
  rw [hw] at this
  simpa [waits, hwait, hr] using this

lemma not_hosted_released (hh : σ.hostsCarefully region a m = true)
    (hf : σ.finished.lookup shard = some (region, true)) :
    m.mayHost a.runtime.selfRegion shard = false := by
  simp only [hostsCarefully, decide_eq_true_eq] at hh
  exact hh.2 shard (mem_keys.mpr (mem_of_lookup hf)) hf

/-- The message of a turn, taken from the pool. -/
structure Taken (σ : ShardingSystem M) (p : Packet M) : Prop where
  sound : σ.Sound p
  command : ∀ id, p.commandOf = some id → id ∉ σ.commands ∧
    ∀ w, σ.workers.lookup id = some w → w.plan.fromRegion ∈ σ.regions →
      w.phase = .awaitingShardStopped

/-- A worker waits for the stop of the shard at the region. -/
def Awaited (σ : ShardingSystem M) (region : RegionId) (shard : ShardId) : Prop :=
  ∃ id w, σ.workers.lookup id = some w ∧ w.phase = .awaitingShardStopped ∧
    w.plan.fromRegion = region ∧ w.plan.shard = shard

lemma awaited_of_handsOff (ht : Taken σ (.region region m)) (ha : σ.regions.lookup region = some a)
    (hs : m.handsOff = some shard) : σ.Awaited region shard := by
  have hcommanded : ∀ s ref, σ.Commanding region s ref → (∀ id, ref = .worker id →
      (Packet.region region m).commandOf = some id) → σ.Awaited region s := by
    rintro s ref ⟨id, w, rfl, hw, -, hr, hs⟩ hcommand
    refine ⟨id, w, hw, (ht.command id (hcommand id rfl)).2 w hw ?_, hr, hs⟩
    rw [hr]
    exact mem_of_lookup ha
  have hsound := ht.sound
  unfold ShardRegionMsg.handsOff at hs
  split at hs
  · exact hsound.elim
  · cases hs
    exact hcommanded _ _ hsound.2 fun id hid => by rw [hid]; rfl
  · cases hs
    exact hcommanded _ _ hsound fun id hid => by rw [hid]; rfl
  · cases hs

/-- What the table of regions may list at a region. -/
structure Fits (σ : ShardingSystem M) (region : RegionId) (a : ShardRegionActor M HandoffRef) : Prop
  where
  nested : a.runtime.handingOffShards ⊆ a.runtime.localShards
  handing : ∀ s ∈ a.runtime.handingOffShards, σ.Awaited region s
  hosted : ∀ s ∈ a.runtime.localShards,
    (∃ x, σ.regions.lookup region = some x ∧ s ∈ x.runtime.localShards) ∨
      ¬ σ.Awaited region s ∧ σ.finished.lookup s ≠ some (region, true)

lemma Inv.fits (h : Inv σ) (ha : σ.regions.lookup region = some a) : σ.Fits region a :=
  ⟨h.nested region a ha, h.handing region a ha, fun _ hs => .inl ⟨a, ha, hs⟩⟩

lemma Inv.of_regions (h : Inv σ) {regions : FinMap RegionId (ShardRegionActor M HandoffRef)}
    (hfits : ∀ r x, regions.lookup r = some x → σ.Fits r x)
    (hmem : ∀ r ∈ regions, r ∈ σ.regions ∨ ∀ q ∈ σ.pending, q.isAbout r = false) :
    Inv { σ with regions := regions } ∧ Persists σ { σ with regions := regions } := by
  have hp : Persists σ { σ with regions := regions } := by
    refine ⟨fun id w hid hu => ⟨w, hid, rfl, hu, fun h => h⟩, fun _ _ _ _ hid => hid,
      fun id w hw hwait x hx hs => ((hfits _ x hx).hosted _ hs).resolve_right fun hn => ?_⟩
    exact hn.1 ⟨id, w, hw, hwait, rfl, rfl⟩
  refine ⟨⟨h.fresh, h.watched, fun r x hx => (hfits r x hx).nested, fun r x hx =>
    (hfits r x hx).handing,
    fun q hq => (h.sound q hq).mono hp fun r hq' hn hm => ?_, h.once, fun id hid w hw hr => ?_,
    h.asked_mono hp, h.stored_mono hp, fun s r hf x hx hs => ?_⟩, hp⟩
  · rcases hmem r hm with hm | hleft
    · exact hn hm
    · rw [hleft q hq] at hq'
      cases hq'
  · rcases hmem _ hr with hr | hleft
    · exact h.commanded id hid w hw hr
    · obtain ⟨w', hw', -, q, hq, habout⟩ := h.command hid
      rw [hw] at hw'
      cases hw'
      rw [hleft q (mem_append_left _ hq)] at habout
      cases habout
  · rcases (hfits r x hx).hosted s hs with ⟨a, ha, hs⟩ | hn
    · exact h.released s r hf a ha hs
    · exact hn.2 hf

lemma bearing_spawnedShard {P : HandoffRef → Prop} (spawner : Option LocalShardSpawner) :
    Bearing P (spawnedShard (M := M) spawner shard) [] := by
  unfold spawnedShard EntityShard.new
  split
  · exact ⟨by simp, by simp, by simp, by simp⟩
  · split <;> exact ⟨by simp, by simp, by simp, by simp⟩

lemma Stored.effects (h : Stored P shards) (spawner : Option LocalShardSpawner)
    (effects : List (RegionEffect M HandoffRef)) :
    Stored P (effects.foldl (regionShards region spawner) shards) := by
  refine List.foldlRecOn effects _ (motive := Stored P) h fun shards h e _ => ?_
  unfold regionShards
  split
  · exact h.insert (bearing_spawnedShard spawner)
  · split
    · exact h.erase _
    · exact h
  · exact h

lemma later_of_newAsk (hm : σ.SoundRegion region m) (he : Answers m a e) {x : StopperAsk}
    (hx : newAsk region e = some x) : σ.Later x.region x.replyTo.target := by
  unfold newAsk at hx
  split at hx
  · cases hx
    rcases he with ⟨timeout, r, rfl, rfl⟩ | ⟨plan, timeout, reply, rfl, rfl⟩ <;> exact hm
  · cases hx

section

variable (ha : σ.regions.lookup region = some a) {effects : List (RegionEffect M HandoffRef)}
  (ht : AfterTurn m a a' effects) (hm : Taken σ (.region region m))
  (hh : σ.hostsCarefully region a m = true)

include ha ht hm hh

lemma Inv.setRegion (h : Inv σ) : Inv { σ with regions := σ.regions.insert region a' } ∧
      Persists σ { σ with regions := σ.regions.insert region a' } := by
  refine h.of_regions (fun r x hx => ?_) fun r hr => .inl ?_
  · rcases of_lookup_insert hx with ⟨rfl, rfl⟩ | hx
    · refine ⟨ht.nested, fun s hs => ?_, fun s hs => (ht.hosted s hs).imp (fun hs => ⟨a, ha, hs⟩) ?_⟩
      · exact (ht.handing s hs).elim (h.handing r a ha s) (awaited_of_handsOff hm ha)
      · intro hs
        refine ⟨?_, fun hf => ?_⟩
        · rintro ⟨id, w, hw, hwait, hr, rfl⟩
          rw [not_hosted_waiting hh hw hwait hr] at hs
          cases hs
        · rw [not_hosted_released hh hf] at hs
          cases hs
    · exact h.fits hx
  · rcases mem_insert.mp hr with rfl | hr
    · exact mem_of_lookup ha
    · exact hr

lemma Inv.settleRegion (h : Inv σ) : Inv (σ.settleRegion region a' effects) := by
  obtain ⟨hset, hp⟩ := h.setRegion ha ht hm hh
  have hm' : SoundRegion { σ with regions := σ.regions.insert region a' } region m :=
    SoundRegion.mono hm.sound hp
  refine (hset.refer (fun x hx => ?_) (Stored.effects hset.stored _ effects)).push
    (harmless_flatMap fun e he => ?_)
  · rcases mem_append.mp hx with hx | hx
    · exact hset.asked x hx
    · obtain ⟨e, he, hx⟩ := mem_filterMap.mp hx
      exact later_of_newAsk hm' (ht.answers e he) hx
  · refine sound_regionPackets hm' (fun id hid => (hm.command id hid).1) ?_ (ht.answers e he)
    exact Finmap.lookup_insert _

end

lemma Inv.removeRegion (h : Inv σ) (region : RegionId) :
    Inv { σ with
      regions := σ.regions.erase region
      shards := retain (fun k => k.1 ≠ region) σ.shards
      asks := σ.asks.filter fun ask => ask.region ≠ region } := by
  have herased : Inv { σ with regions := σ.regions.erase region } :=
    (h.of_regions (fun r x hx => h.fits (of_lookup_erase hx))
      fun r hr => .inl (mem_erase.mp hr).2).1
  refine herased.refer (fun x hx => herased.asked x (mem_of_mem_filter hx)) fun r s x hx => ?_
  rw [lookup_retain] at hx
  split at hx
  · exact herased.stored r s x hx
  · cases hx

lemma sound_stopNotices (hr : region ∉ σ.regions) (c : Option (ShardCoordinator M)) (rejects :
    Bool) :
    σ.Harmless (stopNotices region a c rejects) := by
  refine forall_mem_append.mpr ⟨?_, ?_⟩
  · split
    · exact harmless_nil
    · split
      · exact harmless_one hr rfl
      · exact harmless_one hr rfl
      · exact harmless_nil
  · split
    · exact harmless_one hr rfl
    · exact harmless_nil

lemma Inv.endRegion (h : Inv σ) (region : RegionId) (rejects : Bool) :
    Inv (σ.endRegion region rejects) := by
  unfold ShardingSystem.endRegion
  split
  · exact h
  · refine (h.removeRegion region).push (sound_stopNotices ?_ _ _)
    exact fun hr => (mem_erase.mp hr).1 rfl

lemma Inv.regionTurn (h : Inv σ) (env : RegionEnv) (hm : Taken σ (.region region m))
    (hh : (σ.regions.lookup region).all (fun a => σ.hostsCarefully region a m) = true) :
    Inv (σ.regionTurn env region m) := by
  unfold ShardingSystem.regionTurn
  split
  · exact h
  · rename_i a ha
    rw [ha] at hh
    have ht := receive_afterTurn env m a [] ⟨rfl, rfl, h.nested region a ha⟩
    split
    · rename_i hturn
      rw [hturn] at ht
      split
      · exact (h.settleRegion ha ht hm hh).endRegion region _
      · exact h.settleRegion ha ht hm hh
    · rename_i hturn
      rw [hturn] at ht
      exact (h.settleRegion ha ht.2 hm hh).endRegion region _

/-! ## Turns of shards -/

/-- What stays asked was asked, and what is answered was answered by an effect. -/
lemma answerAsks_spec {effects : List (ShardEffect M HandoffRef)} :
    (∀ x ∈ (answerAsks region shard asks effects).1, x ∈ asks) ∧
    ∀ q ∈ (answerAsks region shard asks effects).2, ∃ replyTo answer,
      .answered replyTo answer ∈ effects ∧ q = askResult region shard (.ok answer) replyTo := by
  induction asks, effects using answerAsks.induct region shard with
  | case1 asks => exact ⟨fun _ hx => hx, nofun⟩
  | case2 asks replyTo answer effects ask hask _ _ _ ih =>
    rw [answerAsks, hask]
    refine ⟨fun x hx => mem_of_mem_erase (ih.1 x hx), fun q hq => ?_⟩
    rcases mem_cons.mp hq with rfl | hq
    · exact ⟨replyTo, answer, mem_cons_self, rfl⟩
    · obtain ⟨r, b, hb, hq⟩ := ih.2 q hq
      exact ⟨r, b, mem_cons_of_mem _ hb, hq⟩
  | case3 asks replyTo answer effects hask ih =>
    rw [answerAsks, hask]
    refine ⟨ih.1, fun q hq => ?_⟩
    obtain ⟨r, b, hb, hq⟩ := ih.2 q hq
    exact ⟨r, b, mem_cons_of_mem _ hb, hq⟩
  | case4 asks e effects he ih =>
    rw [answerAsks]
    · refine ⟨ih.1, fun q hq => ?_⟩
      obtain ⟨r, b, hb, hq⟩ := ih.2 q hq
      exact ⟨r, b, mem_cons_of_mem _ hb, hq⟩
    · exact he

lemma sound_askResult (result : AskResult) {replyTo : StopperReplyTo HandoffRef}
    (h : σ.Later region replyTo.target) :
    σ.Sound (askResult region shard result replyTo) ∧
      (askResult (M := M) region shard result replyTo).commandOf = none := by
  cases replyTo with
  | completion ref | remote ref => exact ⟨h, rfl⟩

lemma sound_shardPackets {e : ShardEffect M HandoffRef} (he : e.Bears (σ.Later region)) :
    σ.Harmless (shardPackets region e) := by
  unfold shardPackets
  split
  · rename_i id plan
    exact harmless_one (he id rfl).1 rfl
  · exact harmless_one he rfl
  · exact harmless_nil

lemma Inv.settleShard (h : Inv σ) (uid : ℕ) {a : EntityShard M HandoffRef}
    {effects : List (ShardEffect M HandoffRef)} (hb : Bearing (σ.Later region) a effects) :
    Inv (σ.settleShard region shard uid a effects) := by
  refine (h.refer (fun x hx => h.asked x (answerAsks_spec.1 x hx)) (Stored.insert h.stored
    ⟨hb.stashed, hb.pending, hb.waiters, nofun⟩)).push
    (forall_mem_append.mpr ⟨harmless_flatMap fun e he => ?_, fun q hq => ?_⟩)
  · exact sound_shardPackets (hb.sent e he)
  · obtain ⟨replyTo, answer, he, rfl⟩ := answerAsks_spec.2 q hq
    exact sound_askResult _ (hb.sent _ he)

lemma Inv.endShard (h : Inv σ) (region : RegionId) (shard : ShardId) :
    Inv (σ.endShard region shard) := by
  unfold ShardingSystem.endShard
  split
  · exact h
  · exact (h.refer h.asked (Stored.erase h.stored _)).push (harmless_one trivial rfl)

lemma Inv.shardTurn (h : Inv σ) (env : ShardEnv) (uid : ℕ) {m : ShardMsg M HandoffRef}
    (hm : m.Bears (σ.Later region)) : Inv (σ.shardTurn env region shard uid m) := by
  unfold ShardingSystem.shardTurn
  split
  · exact h
  · rename_i uid' a ha
    split
    · exact h
    · have ht := EntityShard.receive_keepsRefs env hm a [] (h.stored region shard _ ha)
      split
      · rename_i hturn
        rw [hturn] at ht
        split
        · exact (h.settleShard uid ht).endShard region shard
        · exact h.settleShard uid ht
      · rename_i hturn
        rw [hturn] at ht
        exact (h.settleShard uid ht.2).endShard region shard

/-! ## Turns of workers -/

variable {w w' : HandoffWorker M} {x : HandoffWorkerMsg M} {effects : List (WorkerEffect M)}

/-- The owner does not list the shard, and the command has been taken unless the owner has stopped. -/
def Stopped (σ : ShardingSystem M) (id : ℕ) (w : HandoffWorker M) : Prop :=
  (∀ a, σ.regions.lookup w.plan.fromRegion = some a → w.plan.shard ∉ a.runtime.localShards) ∧
    (id ∈ σ.commands → w.plan.fromRegion ∉ σ.regions)

lemma stopped_of_reportsStop (hw : σ.workers.lookup id = some w)
    (hwait : w.phase = .awaitingShardStopped) (hx : σ.SoundWorker id x)
    (hr : x.reportsStop w.plan = true) : σ.Stopped id w := by
  have hgone : ∀ s, s = w.plan.shard → σ.Answered id → σ.Gone id s → σ.Stopped id w := by
    rintro s rfl ⟨-, -, -, hc⟩ hg
    exact ⟨hg w hw hwait rfl, fun hid => absurd hid hc⟩
  unfold HandoffWorkerMsg.reportsStop at hr
  split at hr
  · exact hgone _ (of_decide_eq_true hr) hx.1 (hx.2 _ _ _ rfl)
  · exact hgone _ (of_decide_eq_true hr) hx.1 (hx.2 _ _ rfl)
  · exact hgone _ (of_decide_eq_true hr).2 hx.1 hx.2
  · have hn : w.plan.fromRegion ∉ σ.regions := of_decide_eq_true hr ▸ hx
    exact ⟨fun a ha => absurd (mem_of_lookup ha) hn, fun _ => hn⟩
  · cases hr

lemma commands_workerPackets (e : WorkerEffect M) :
    (workerPackets id w e).filterMap Packet.commandOf =
      match e with
      | .handOff .. => [id]
      | _ => [] := by
  cases e with
  | beginHandOff region route | handOff region route stop => cases route <;> rfl
  | _ => rfl

lemma commands_flatMap (effects : List (WorkerEffect M)) :
    (effects.flatMap (workerPackets id w)).filterMap Packet.commandOf =
      (effects.filter isCommand).flatMap fun e =>
        (workerPackets id w e).filterMap Packet.commandOf := by
  induction effects with
  | nil => rfl
  | cons e effects ih =>
    rw [flatMap_cons, filterMap_append, ih, filter_cons]
    split
    · rfl
    · rename_i he
      rw [commands_workerPackets]
      cases e <;> first | rfl | exact absurd rfl he

lemma newCommands (id : ℕ) (ht : HandoffWorker.Moves observed w w' effects) :
    (effects.flatMap (workerPackets id w)).filterMap Packet.commandOf = [] ∨
      (effects.flatMap (workerPackets id w)).filterMap Packet.commandOf = [id] ∧
        w.unsent = true ∧ w'.phase = .awaitingShardStopped := by
  rw [commands_flatMap]
  have hmute : HandoffWorker.Mute effects → effects.filter isCommand = [] := fun hm =>
    filter_eq_nil_iff.mpr fun e he => by simp [hm e he]
  cases ht with
  | prepares _ _ hm | givesUp _ _ hm | ends _ _ hm | rests _ _ hm => rw [hmute hm]; exact .inl rfl
  | tells hu hp hc =>
    obtain ⟨route, stop, hc⟩ := hc
    rw [hc, flatMap_cons, commands_workerPackets]
    exact .inr ⟨rfl, hu, hp⟩
  | waits _ _ hc =>
    refine .inl (flatMap_eq_nil_iff.mpr fun e he => ?_)
    obtain ⟨he, hcommand⟩ := mem_filter.mp he
    obtain ⟨-, timeout, rfl⟩ := hc e he hcommand
    rfl

section

variable (ht : HandoffWorker.Moves observed w w' effects)

include ht

lemma mem_newCommands {k : ℕ}
    (hk : k ∈ (effects.flatMap (workerPackets id w)).filterMap Packet.commandOf) :
    k = id ∧ w.unsent = true ∧ w'.phase = .awaitingShardStopped := by
  rcases newCommands id ht with hn | ⟨hn, hu, hp⟩
  · rw [hn] at hk
    cases hk
  · rw [hn] at hk
    exact ⟨mem_singleton.mp hk, hu, hp⟩

lemma waits_or_ends (hwait : w.phase = .awaitingShardStopped) :
    w'.phase = .awaitingShardStopped ∨ w'.phase = .done := by
  cases ht with
  | waits _ hp => exact .inl hp
  | ends _ hd => exact .inr hd
  | rests hf => rw [hf] at hwait; cases hwait
  | prepares hf | tells hf | givesUp hf => simp [unsent, hwait] at hf

lemma sent_of_moves (hu : w.unsent = false) :
    w'.unsent = false ∧ (w'.phase = .awaitingShardStopped → w.phase = .awaitingShardStopped) := by
  cases ht with
  | prepares hf | tells hf | givesUp hf => rw [hu] at hf; cases hf
  | waits hf hp | ends hf hp => exact ⟨by simp [unsent, hp], fun _ => hf⟩
  | rests hf hp => exact ⟨by simp [unsent, hp], fun hp' => by rw [hp] at hp'; cases hp'⟩

lemma ends_of_reported (hr : reported effects = some true) :
    w.phase = .awaitingShardStopped ∧ w'.phase = .done := by
  cases ht with
  | ends hf hp => exact ⟨hf, hp⟩
  | givesUp _ _ _ hn => exact absurd hr hn
  | prepares _ _ _ hs | tells _ _ _ hs | waits _ _ _ hs | rests _ _ _ hs => rw [hs] at hr; cases hr

end

def settleWorker (σ : ShardingSystem M) (id : ℕ) (w w' : HandoffWorker M)
    (effects : List (WorkerEffect M)) : ShardingSystem M :=
  push { σ with
    workers := σ.workers.insert id w'
    finished := match HandoffWorker.reported effects with
      | some ok => σ.finished.insert w.plan.shard (w.plan.fromRegion, ok)
      | none => σ.finished }
    (effects.flatMap (workerPackets id w))

lemma workerTurn_eq (rejecting : Finset RegionId) (hw : σ.workers.lookup id = some w) :
    σ.workerTurn rejecting id x =
      σ.settleWorker id w (w.receive rejecting x).1 (w.receive rejecting x).2 := by
  rw [workerTurn, hw]
  rfl

lemma commands_settleWorker : (σ.settleWorker id w w' effects).commands =
    σ.commands ++ (effects.flatMap (workerPackets id w)).filterMap Packet.commandOf :=
  filterMap_append

lemma lookup_settleWorker (k : ℕ) : (σ.settleWorker id w w' effects).workers.lookup k =
    if k = id then some w' else σ.workers.lookup k :=
  lookup_insert _ _ _ _

lemma Inv.notMem_commands (h : Inv σ) (hw : σ.workers.lookup id = some w) (hu : w.unsent = true) :
    id ∉ σ.commands := by
  intro hid
  obtain ⟨w₁, hw₁, hu₁, -⟩ := h.command hid
  rw [hw] at hw₁
  cases hw₁
  rw [hu] at hu₁
  cases hu₁

section

variable (hw : σ.workers.lookup id = some w) (ht : HandoffWorker.Moves observed w w' effects)
  (hplan : w'.plan = w.plan)

include hw ht hplan

lemma persists_settleWorker : Persists σ (σ.settleWorker id w w' effects) := by
  refine ⟨fun k v hk hu => ?_, fun k v hk hu hm => ?_, fun k v hk hp a ha hs => ⟨a, ha, hs⟩⟩
  · rw [lookup_settleWorker]
    split
    · rename_i hkid
      rw [hkid, hw] at hk
      cases hk
      obtain ⟨hu', hp⟩ := sent_of_moves ht hu
      exact ⟨w', rfl, hplan, hu', hp⟩
    · exact ⟨v, hk, rfl, hu, fun h => h⟩
  · rw [commands_settleWorker] at hm
    rcases mem_append.mp hm with hm | hm
    · exact hm
    · obtain ⟨rfl, hu', -⟩ := mem_newCommands ht hm
      rw [hw] at hk
      cases hk
      rw [hu] at hu'
      cases hu'

lemma sound_workerPackets (ho : observed → σ.Answered id) :
    ∀ q ∈ effects.flatMap (workerPackets id w), (σ.settleWorker id w w' effects).Sound q := by
  intro q hq
  obtain ⟨e, he, hq⟩ := mem_flatMap.mp hq
  have hself : (σ.settleWorker id w w' effects).workers.lookup id = some w' := by
    rw [lookup_settleWorker, if_pos rfl]
  by_cases hc : e.isCommand = true
  · have hcommand : e ∈ effects.filter isCommand := mem_filter.mpr ⟨he, hc⟩
    cases ht with
    | tells hu hp hcs =>
      obtain ⟨route, stop, hcs⟩ := hcs
      rw [hcs] at hcommand
      have hsent : w'.unsent = false := by simp [unsent, hp]
      have hcommanding : (σ.settleWorker id w w' effects).Commanding w.plan.fromRegion w.plan.shard
          (.worker id) :=
        ⟨id, w', rfl, hself, hsent, by rw [hplan], by rw [hplan]⟩
      rw [mem_singleton.mp hcommand] at hq
      cases route
      · rw [mem_singleton.mp hq]
        exact ⟨rfl, hcommanding⟩
      · rw [mem_singleton.mp hq]
        exact hcommanding
    | waits hf hp hcs =>
      obtain ⟨hobserved, timeout, rfl⟩ := hcs e he hc
      rw [mem_singleton.mp hq]
      intro k hk
      cases hk
      refine ⟨(ho hobserved).mono (persists_settleWorker hw (.waits hf hp hcs ‹_›) hplan),
        fun v hv => ?_⟩
      rw [hself] at hv
      cases hv
      rw [hplan]
    | prepares _ _ hm | givesUp _ _ hm | ends _ _ hm | rests _ _ hm => rw [hm e he] at hc; cases hc
  · cases e with
    | beginHandOff region route =>
      cases route
      all_goals
        rw [mem_singleton.mp hq]
        trivial
    | report s ok =>
      rw [mem_singleton.mp hq]
      trivial
    | handOff region route stop | completeHandOff region timeout => exact absurd rfl hc
    | scheduleTimeout timeout | snapshot s phase remaining | stopSelf => cases hq

theorem Inv.settleWorker (h : Inv σ) (ho : observed → σ.Answered id)
    (hend : w.phase = .awaitingShardStopped → w'.phase = .done → σ.Stopped id w) :
    Inv (σ.settleWorker id w w' effects) := by
  have hp := persists_settleWorker hw ht hplan
  have hlookup : ∀ k, (σ.settleWorker id w w' effects).workers.lookup k =
    if k = id then some w' else σ.workers.lookup k := lookup_settleWorker
  refine ⟨fun c hc k hk => ?_, h.watched, h.nested, fun r a ha s hs => ?_, fun q hq => ?_, ?_,
    fun k hk v hv hr => ?_, h.asked_mono hp, h.stored_mono hp, fun s r hf a ha => ?_⟩
  · refine h.fresh c hc k ?_
    rcases mem_insert.mp hk with rfl | hk
    · exact mem_of_lookup hw
    · exact hk
  · obtain ⟨k, v, hk, hwait, hr, hs'⟩ := h.handing r a ha s hs
    by_cases hkid : k = id
    · rw [hkid, hw] at hk
      cases hk
      refine ⟨id, w', by rw [hlookup, if_pos rfl], ?_, hplan ▸ hr, hplan ▸ hs'⟩
      refine (waits_or_ends ht hwait).resolve_right fun hd => absurd (h.nested r a ha hs) ?_
      rw [← hs']
      exact (hend hwait hd).1 a (hr ▸ ha)
    · exact ⟨k, v, by rw [hlookup, if_neg hkid]; exact hk, hwait, hr, hs'⟩
  · have hq : q ∈ (σ.inFlight ++ effects.flatMap (workerPackets id w)) ++
      ((σ.coordinator.map (·.stashed)).getD []).map Packet.coordinator := hq
    rcases mem_append.mp hq with hq | hq
    · rcases mem_append.mp hq with hq | hq
      · exact (h.sound q (mem_append_left _ hq)).mono hp fun _ _ hn => hn
      · exact sound_workerPackets hw ht hplan ho q hq
    · exact (h.sound q (mem_append_right _ hq)).mono hp fun _ _ hn => hn
  · rw [commands_settleWorker]
    rcases newCommands id ht with hn | ⟨hn, hu, -⟩
    · rw [hn, append_nil]
      exact h.once
    · rw [hn]
      refine nodup_append.mpr ⟨h.once, nodup_singleton _, fun k hk k' hk' => ?_⟩
      rw [mem_singleton.mp hk']
      rintro rfl
      exact h.notMem_commands hw hu hk
  · rw [hlookup] at hv
    rw [commands_settleWorker] at hk
    split at hv
    · rename_i hkid
      cases hv
      subst hkid
      rw [hplan] at hr
      rcases mem_append.mp hk with hk | hk
      · have hwait := h.commanded k hk w hw hr
        exact (waits_or_ends ht hwait).resolve_right fun hd => (hend hwait hd).2 hk hr
      · exact (mem_newCommands ht hk).2.2
    · rename_i hkid
      rcases mem_append.mp hk with hk | hk
      · exact h.commanded k hk v hv hr
      · exact absurd (mem_newCommands ht hk).1 hkid
  · have hf : (match reported effects with
        | some ok => σ.finished.insert w.plan.shard (w.plan.fromRegion, ok)
        | none => σ.finished).lookup s = some (r, true) := hf
    split at hf
    · rename_i ok hok
      rcases of_lookup_insert hf with ⟨rfl, hr⟩ | hf
      · cases hr
        obtain ⟨hwait, hd⟩ := ends_of_reported ht hok
        exact (hend hwait hd).1 a ha
      · exact h.released s r hf a ha
    · exact h.released s r hf a ha

end

lemma Inv.workerTurn (h : Inv σ) (rejecting : Finset RegionId) (hx : σ.SoundWorker id x)
    (hc : (σ.workers.lookup id).all (fun w => decide (waits w = true →
      (w.receive rejecting x).1.phase = .done → x.reportsStop w.plan = true)) = true) :
    Inv (σ.workerTurn rejecting id x) := by
  cases hw : σ.workers.lookup id with
  | none =>
    rw [ShardingSystem.workerTurn, hw]
    exact h
  | some w =>
    rw [hw] at hc
    rw [workerTurn_eq rejecting hw]
    have ha : w.Acts x _ (w.receive rejecting x).2 := acts_receive x
    refine h.settleWorker hw ha.moves ha.plan_eq ?_ fun hwait hdone => ?_
    · rintro ⟨plan, rfl⟩
      exact hx
    · refine stopped_of_reportsStop hw hwait hx ?_
      exact of_decide_eq_true hc (by simp [waits, hwait]) hdone

/-! ## Turns of the coordinator -/

variable {c c' : ShardCoordinator M} {y : ShardCoordinatorMsg}
  {sent : List (CoordinatorEffect M)}

lemma lookup_spawned (xs : List (ℕ × HandoffWorker M)) (ws : FinMap ℕ (HandoffWorker M)) (k : ℕ) :
    (xs.foldl (fun ws x => ws.insert x.1 x.2) ws).lookup k = ws.lookup k ∨
      ∃ v, (xs.foldl (fun ws x => ws.insert x.1 x.2) ws).lookup k = some v ∧ (k, v) ∈ xs := by
  induction xs generalizing ws with
  | nil => exact .inl rfl
  | cons x xs ih =>
    rcases ih (ws.insert x.1 x.2) with hk | ⟨v, hv, hm⟩
    · rw [lookup_insert] at hk
      split at hk
      · rename_i hkx
        exact .inr ⟨x.2, hk, hkx ▸ mem_cons_self⟩
      · exact .inl hk
    · exact .inr ⟨v, hv, mem_cons_of_mem _ hm⟩

/-- The workers after a turn: those before, and new ones that have not started. -/
lemma lookup_settleCoordinator (h : Inv σ) (hc : σ.coordinator = some c)
    (ht : AfterCoordinator y c c' sent) (k : ℕ) :
    (σ.settleCoordinator c' sent).workers.lookup k = σ.workers.lookup k ∨
      σ.workers.lookup k = none ∧ k < c'.next ∧
        ∃ v, (σ.settleCoordinator c' sent).workers.lookup k = some v ∧ v.phase = .idle := by
  rcases lookup_spawned (sent.filterMap spawned) σ.workers k with hk | ⟨v, hv, hm⟩
  · exact .inl hk
  · obtain ⟨e, he, hspawn⟩ := mem_filterMap.mp hm
    unfold spawned at hspawn
    split at hspawn
    · cases hspawn
      obtain ⟨hle, hlt, hidle⟩ := ht.passes _ he
      refine .inr ⟨?_, hlt, v, hv, hidle⟩
      by_contra hsome
      have hmem : k ∈ σ.workers := mem_iff_isSome.mpr (isSome_iff_ne_none.mpr hsome)
      exact absurd (h.fresh c hc k hmem) (Nat.not_lt.mpr hle)
    · cases hspawn

section

variable (h : Inv σ) (hc : σ.coordinator = some c) (hy : σ.SoundCoordinator y)

include h hc hy

lemma notMem_stoppedRegion (hr : y.stoppedRegion c = some region) : region ∉ σ.regions := by
  unfold ShardCoordinatorMsg.stoppedRegion at hr
  split at hr
  · cases hr
    exact hy
  · cases hr
    exact hy
  · rw [h.watched c hc _ _ hr]
    exact hy
  · cases hr

variable (hreach : reachesItsWorker c y = true)

include hreach

lemma sound_told (ht : Told y c id x) : σ.SoundWorker id x := by
  unfold Told at ht
  split at ht
  · exact notMem_stoppedRegion h hc hy ht
  · obtain ⟨id', rfl, hactive⟩ := ht
    rcases of_decide_eq_true hreach with hn | hn
    · rw [hactive] at hn
      cases hn
    · rw [hactive] at hn
      cases hn
      exact hy
  · trivial
  · exact ht.elim

lemma sound_coordinatorPackets {e : CoordinatorEffect M} (he : Passes y c c' e) :
    σ.Harmless (coordinatorPackets e) := by
  unfold coordinatorPackets
  split
  case h_2 => exact harmless_one (sound_told h hc hy hreach he) rfl
  case h_9 =>
    intro q hq
    obtain ⟨z, hz, rfl⟩ := mem_map.mp hq
    refine ⟨?_, rfl⟩
    rcases he z hz with hz | rfl
    · refine h.sound _ (mem_append_right _ ?_)
      rw [hc]
      exact mem_map_of_mem hz
    · exact hy
  case h_10 => exact harmless_nil
  all_goals exact harmless_one trivial rfl

theorem Inv.settleCoordinator (ht : AfterCoordinator y c c' sent) :
    Inv (σ.settleCoordinator c' sent) := by
  have hlookup := lookup_settleCoordinator h hc ht
  have hkept : ∀ k v, σ.workers.lookup k = some v →
      (σ.settleCoordinator c' sent).workers.lookup k = some v := by
    intro k v hk
    rcases hlookup k with he | ⟨hn, -⟩
    · rw [he, hk]
    · rw [hk] at hn
      cases hn
  have hpackets : σ.Harmless (sent.flatMap coordinatorPackets) :=
    harmless_flatMap fun e he => sound_coordinatorPackets h hc hy hreach (ht.passes e he)
  have hcommands : (σ.settleCoordinator c' sent).commands = σ.commands :=
    commands_push fun q hq => (hpackets q hq).2
  have hp : Persists σ (σ.settleCoordinator c' sent) := by
    refine ⟨fun k v hk hu => ⟨v, hkept k v hk, rfl, hu, fun h => h⟩, fun k _ _ _ hm => hcommands ▸ hm,
      fun k v hk hwait a ha hs => ⟨a, ha, hs⟩⟩
  refine ⟨fun d hd k hk => ?_, fun d hd path r hr => ?_, h.nested, fun r a ha s hs => ?_, fun q hq
    => ?_,
    hcommands.symm ▸ h.once, fun k hk v hv hr => ?_, h.asked_mono hp,
    h.stored_mono hp, h.released⟩
  · cases hd
    obtain ⟨v, hv⟩ := isSome_iff_exists.mp (mem_iff_isSome.mp hk)
    rcases hlookup k with he | ⟨-, hlt, -⟩
    · rw [hv] at he
      exact (h.fresh c hc k (mem_of_lookup he.symm)).trans_le ht.next
    · exact hlt
  · cases hd
    rcases ht.watched path r hr with hr | rfl
    · exact h.watched c hc path r hr
    · exact hy
  · obtain ⟨k, v, hk, hv⟩ := h.handing r a ha s hs
    exact ⟨k, v, hkept k v hk, hv⟩
  · have hq : q ∈ (σ.inFlight ++ sent.flatMap coordinatorPackets) ++
      c'.stashed.map Packet.coordinator := hq
    have hs : σ.Sound q := by
      rcases mem_append.mp hq with hq | hq
      · rcases mem_append.mp hq with hq | hq
        · exact h.sound q (mem_append_left _ hq)
        · exact (hpackets q hq).1
      · obtain ⟨z, hz, rfl⟩ := mem_map.mp hq
        rcases ht.stashed z hz with hz | rfl
        · refine h.sound _ (mem_append_right _ ?_)
          rw [hc]
          exact mem_map_of_mem hz
        · exact hy
    exact hs.mono hp fun _ _ hn => hn
  · rw [hcommands] at hk
    obtain ⟨v', hv', -⟩ := h.command hk
    rw [hkept k v' hv'] at hv
    cases hv
    exact h.commanded k hk v hv' hr

end

lemma Inv.endCoordinator (h : Inv σ)
    (hn : ∀ k v, σ.workers.lookup k = some v → v.phase ≠ .awaitingShardStopped) :
    Inv σ.endCoordinator := by
  have hlookup : ∀ k, σ.endCoordinator.workers.lookup k =
      (σ.workers.lookup k).map fun v => { v with phase := .done } := by
    exact fun k => lookup_tabulate_keys fun h => by rw [h]; rfl
  have hdone : ∀ k v, σ.endCoordinator.workers.lookup k = some v → v.phase = .done := by
    intro k v hv
    rw [hlookup] at hv
    obtain ⟨v', -, rfl⟩ := map_eq_some_iff.mp hv
    rfl
  have hp : Persists σ σ.endCoordinator := by
    refine ⟨fun k v hk _ => ⟨{ v with phase := .done }, ?_, rfl, rfl, nofun⟩,
      fun _ _ _ _ hm => hm, fun k v _ _ a ha hs => ⟨a, ha, hs⟩⟩
    rw [hlookup, hk]
    rfl
  refine ⟨fun d hd => (nomatch hd), fun d hd => (nomatch hd), h.nested, fun r a ha s hs => ?_,
    fun q hq => ?_, h.once, fun k hk v hv hr => ?_, h.asked_mono hp,
    h.stored_mono hp, h.released⟩
  · obtain ⟨k, v, hk, hwait, -⟩ := h.handing r a ha s hs
    exact absurd hwait (hn k v hk)
  · have hq : q ∈ σ.inFlight ++ [] := hq
    rw [append_nil] at hq
    exact (h.sound q (mem_append_left _ hq)).mono hp fun _ _ hn => hn
  · rw [hlookup] at hv
    obtain ⟨v', hv', rfl⟩ := map_eq_some_iff.mp hv
    exact absurd (h.commanded k hk v' hv' hr) (hn k v' hv')

lemma noneWaits_settleCoordinator (h : Inv σ) (hc : σ.coordinator = some c)
    (ht : AfterCoordinator y c c' sent) (hn : σ.noneWaits = true) (k : ℕ) (v : HandoffWorker M)
    (hv : (σ.settleCoordinator c' sent).workers.lookup k = some v) :
    v.phase ≠ .awaitingShardStopped := by
  rcases lookup_settleCoordinator h hc ht k with he | ⟨-, -, v', hv', hidle⟩
  · rw [hv] at he
    have := of_decide_eq_true hn k (mem_keys.mpr (mem_of_lookup he.symm))
    rw [← he] at this
    simpa [waits] using this
  · rw [hv] at hv'
    cases hv'
    rw [hidle]
    decide

lemma Inv.coordinatorTurn (h : Inv σ) (env : CoordinatorEnv) (hy : σ.SoundCoordinator y)
    (hcare : σ.coordinator.all (fun c => decide (reachesItsWorker c y = true ∧
      (coordinatorEnds env y c = true → σ.noneWaits = true))) = true) :
    Inv (σ.coordinatorTurn env y) := by
  unfold ShardingSystem.coordinatorTurn
  split
  · exact h
  · rename_i c hc
    rw [hc] at hcare
    obtain ⟨hreach, hends⟩ := of_decide_eq_true hcare
    have ht := ShardCoordinator.after_receive env y c [] ⟨rfl, rfl⟩
    -- the turn, failed or not, and then the stop of the coordinator
    have hboth : ∀ c' sent, AfterCoordinator y c c' sent →
        Inv (if coordinatorEnds env y c then (σ.settleCoordinator c' sent).endCoordinator
          else σ.settleCoordinator c' sent) := by
      intro c' sent hafter
      have hsettled := h.settleCoordinator hc hy hreach hafter
      split
      · rename_i he
        exact hsettled.endCoordinator (noneWaits_settleCoordinator h hc hafter (hends he))
      · exact hsettled
    cases hturn : ShardCoordinator.receive env y (c, []) with
    | ok _ out =>
      rw [hturn] at ht
      exact hboth out.1 out.2 ht
    | error _ out =>
      rw [hturn] at ht
      exact hboth out.1 out.2 ht.2

/-! ## Runs -/

/-- A region starts when nothing about an earlier one is left. -/
lemma Inv.startRegion (h : Inv σ) (hfresh : freshRegion a = true)
    (hleft : ∀ q ∈ σ.pending, q.isAbout region = false) :
    Inv { σ with regions := σ.regions.insert region a } := by
  obtain ⟨hhanding, hlocal⟩ := of_decide_eq_true hfresh
  refine (h.of_regions (fun r x hx => ?_) fun r hr => ?_).1
  · rcases of_lookup_insert hx with ⟨-, rfl⟩ | hx
    · refine ⟨?_, ?_, ?_⟩ <;> simp [hhanding, hlocal]
    · exact h.fits hx
  · rcases mem_insert.mp hr with rfl | hr
    · exact .inr hleft
    · exact .inl hr

lemma sound_fromOutside (h : q.fromOutside = true) : σ.Sound q ∧ q.commandOf = none := by
  cases q with
  | region r m | shard r s uid m | worker k m => cases m <;> first | exact ⟨trivial, rfl⟩ | cases h
  | coordinator m =>
    cases m with
    | registerLocalRegion r path =>
      cases path with
      | none => exact ⟨trivial, rfl⟩
      | some path => exact ⟨(of_decide_eq_true h).symm, rfl⟩
    | _ => first | exact ⟨trivial, rfl⟩ | cases h

lemma Inv.handle (h : Inv σ) (env : SystemEnv) (hq : Taken σ q)
    (hc : σ.carefulTurn env q = true) : Inv (σ.handle env q) := by
  cases q with
  | region r m => exact h.regionTurn env.region hq hc
  | shard r s uid m => exact h.shardTurn env.shard uid hq.sound
  | worker k m => exact h.workerTurn env.rejecting hq.sound hc
  | coordinator m => exact h.coordinatorTurn env.coordinator hq.sound hc

lemma inv_step {i : SystemAction M} (h : Inv σ) (hc : σ.careful i = true)
    (hs : σ.step i = some σ') : Inv σ' := by
  cases i with
  | deliver position env =>
    obtain ⟨q, hq, rfl⟩ := map_eq_some_iff.mp hs
    obtain ⟨htaken, hsound, hcommand⟩ := h.take hq
    rw [careful, hq] at hc
    exact htaken.handle env ⟨hsound, hcommand⟩ hc
  | inject q =>
    rw [step] at hs
    split at hs
    · rename_i hq
      cases hs
      exact h.push (forall_mem_singleton.mpr (sound_fromOutside hq))
    · cases hs
  | lose position =>
    obtain ⟨q, hq, hs⟩ := bind_eq_some_iff.mp hs
    split at hs
    · cases hs
      exact (h.take hq).1
    · cases hs
  | askTimeout position =>
    obtain ⟨ask, hask, rfl⟩ := map_eq_some_iff.mp hs
    refine (h.refer (fun z hz => h.asked z (mem_of_mem_eraseIdx hz)) h.stored).push ?_
    exact forall_mem_singleton.mpr (sound_askResult _ (h.asked ask (mem_of_getElem? hask)))
  | startRegion region a =>
    rw [step] at hs
    split at hs
    · rename_i hfresh
      cases hs
      refine h.startRegion hfresh.2 fun q hq => ?_
      simpa using all_eq_true.mp hc q hq
    · cases hs
  | stopRegion region rejects =>
    rw [step] at hs
    split at hs
    · cases hs
      exact h.endRegion region rejects
    · cases hs
  | failShard region shard =>
    rw [step] at hs
    split at hs
    · cases hs
      exact h.endShard region shard
    · cases hs

lemma inv_init (h : machine.init σ) : Inv σ := by
  obtain ⟨hw, hsh, hasks, hpool, hfin, hregions, hcoordinator⟩ := h
  have hfresh : ∀ r x, σ.regions.lookup r = some x →
      x.runtime.handingOffShards = ∅ ∧ x.runtime.localShards = ∅ := by
    intro r x hx
    have := hregions r (mem_keys.mpr (mem_of_lookup hx))
    rw [hx] at this
    exact of_decide_eq_true this
  have hcommands : σ.commands = [] := by rw [commands, hpool]; rfl
  refine ⟨fun c hc k hk => ?_, fun c hc path r hr => ?_, fun r x hx => ?_, fun r x hx s hs => ?_,
    fun q hq => ?_, hcommands ▸ nodup_nil, fun k hk => ?_, fun z hz => ?_, fun r s z hz => ?_,
    fun s r hf => ?_⟩
  · rw [hw] at hk
    exact absurd hk notMem_empty
  · rw [hc] at hcoordinator
    have hkeys := (of_decide_eq_true hcoordinator).2
    have := mem_keys.mpr (mem_of_lookup hr)
    rw [hkeys] at this
    exact absurd this (Finset.notMem_empty _)
  · rw [(hfresh r x hx).1]
    exact Finset.empty_subset _
  · rw [(hfresh r x hx).1] at hs
    exact absurd hs (Finset.notMem_empty _)
  · rw [pending, hpool] at hq
    cases hc : σ.coordinator with
    | none =>
      rw [hc] at hq
      cases hq
    | some c =>
      rw [hc] at hq hcoordinator
      have hstashed : c.stashed = [] := (of_decide_eq_true hcoordinator).1
      simp [hstashed] at hq
  · rw [hcommands] at hk
    cases hk
  · rw [hasks] at hz
    cases hz
  · rw [hsh] at hz
    cases hz
  · rw [hfin] at hf
    cases hf

/-- The runtime rejects a home for a handoff only when the shard is listed as handing off. -/
lemma mem_handingOff_of_recordShardHome {rt : ShardRegionRuntime M} {home current : RegionId}
    (h : rt.recordShardHome shard home = .error (.shardHomeDuringHandOff shard current)) :
    shard ∈ rt.handingOffShards := by
  by_contra hs
  rw [ShardRegionRuntime.recordShardHome, if_neg hs] at h
  split at h
  · cases h
  · dsimp only at h
    split at h
    · split at h <;> cases h
    · cases h

/-- **A handoff leaves no residue** in the runs whose steps are all careful. -/
theorem handoff_leaves_no_residue (h : machine.Reach (fun (σ :
    ShardingSystem M) i => σ.careful i = true) σ) :
    σ.NoResidue := by
  have hinv : Inv σ := h.invariant (fun _ => inv_init) fun _ _ _ => inv_step
  intro _ s hs
  have hn : ∀ r x, σ.regions.lookup r = some x → s ∉ x.runtime.handingOffShards := by
    intro r x hx hm
    obtain ⟨k, v, hk, hwait, -, hshard⟩ := hinv.handing r x hx s hm
    rw [hs k v hk hshard] at hwait
    cases hwait
  refine ⟨fun r x hx => ⟨hn r x hx, fun home current he => ?_⟩, fun r hf x hx => ?_⟩
  · exact hn r x hx (mem_handingOff_of_recordShardHome he)
  · exact hinv.released s r hf x hx

end ShardingSystem

/-! ## A shard without entities -/

namespace IdleShard

/-- Two regions; the strategy moves the shard from the first to the second. -/
def strategy : ShardAllocationStrategy where
  allocateShard _ _ allocations := .ok (if "r2" ∈ allocations.regions then "r2" else "r1")
  rebalance allocations _ :=
    .ok (if allocations.shardHomes.lookup "s" = some "r1" then {"s"} else ∅)

def region (r : RegionId) : ShardRegionActor Unit HandoffRef :=
  { ShardRegionActor.new r 10 with
    localShardSpawner := some ⟨10, none⟩
    registration := some ⟨1, false⟩ }

def start : ShardingSystem Unit where
  coordinator := some ⟨.new (.new false), strategy, none, false, false, [], some ⟨(), 10, ∅, ∅, 0⟩, ∅⟩
  workers := ∅
  regions := (Finmap.singleton "r1" (region "r1")).insert "r2" (region "r2")
  shards := ∅
  asks := []
  inFlight := []
  finished := ∅

def env : SystemEnv :=
  ⟨⟨"region", ∅, ∅, ∅, ∅, ∅, 1, false, false⟩, ⟨∅, ∅, false, 1⟩, ⟨∅, ∅, false, false, false, ∅⟩, ∅⟩

def deliveries (n : ℕ) : List (SystemAction Unit) := List.replicate n (.deliver 0 env)

/-- The shard is hosted by the first region. -/
def hosted : List (SystemAction Unit) :=
  .inject (.coordinator (.registerLocalRegion "r1" none)) :: deliveries 2 ++
  .inject (.coordinator (.requestShardHome "r1" "s")) :: deliveries 4

/-- A rebalance starts, and then the second region registers. -/
def rebalanced : List (SystemAction Unit) :=
  .inject (.coordinator .rebalanceTick) :: deliveries 1 ++
  [.inject (.coordinator (.registerLocalRegion "r2" none))]

/-- The shard is handed off while it has no entities. -/
def idle : List (SystemAction Unit) := hosted ++ rebalanced ++ deliveries 12

/-- The shard has an entity, whose child terminates after the command to stop. -/
def busy : List (SystemAction Unit) :=
  hosted ++ .inject (.region "r1" (.routeToLocalShard "s" ⟨"e", ()⟩ .outside .outside)) ::
    deliveries 2 ++
  rebalanced ++ deliveries 11 ++
  .inject (.shard "r1" "s" 1 (.observedEntityTerminated "e" 1)) :: deliveries 7

/-- The handoff has finished with ok and nothing is left to do. -/
def finishedWithOk (σ : ShardingSystem Unit) : Bool :=
  σ.inFlight.isEmpty && decide (σ.finished.lookup "s" = some ("r1", true)) &&
    decide (∀ id ∈ σ.workers.keys, (σ.workers.lookup id).all (·.phase = .done))

/-- The old owner lists the shard as local and as handing off. -/
def residue (σ : ShardingSystem Unit) : Bool :=
  (σ.regions.lookup "r1").any fun a =>
    "s" ∈ a.runtime.handingOffShards ∧ "s" ∈ a.runtime.localShards

lemma start_init : machine.init start :=
  ⟨rfl, rfl, rfl, rfl, rfl, by decide +kernel, by decide +kernel⟩

lemma inactive_of_finishedWithOk {σ : ShardingSystem Unit} (h : finishedWithOk σ = true) :
    σ.inFlight = [] ∧ σ.finished.lookup "s" = some ("r1", true) ∧ σ.Inactive "s" := by
  simp only [finishedWithOk, Bool.and_eq_true, decide_eq_true_eq, List.isEmpty_iff] at h
  obtain ⟨⟨hpool, hfinished⟩, hdone⟩ := h
  refine ⟨hpool, hfinished, fun id w hw _ => ?_⟩
  have := hdone id (mem_keys.mpr (mem_of_lookup hw))
  rw [hw] at this
  exact of_decide_eq_true this

/-- **The residue of an idle shard**: the worker has finished with ok, and the old owner lists the shard
as local and as handing off. -/
theorem idle_shard_residue : ∃ σ : ShardingSystem Unit, ShardingSystem.machine.Reachable σ ∧
    σ.inFlight = [] ∧ σ.Inactive "s" ∧ ¬ σ.NotHandingOff "s" ∧ ¬ σ.Released "s" := by
  obtain ⟨σ, hσ, h⟩ := Machine.Reach.exists_of_exec
    (c := fun _ _ => True) (P := fun σ => finishedWithOk σ ∧ residue σ) idle start_init
    (by decide +kernel)
  obtain ⟨hpool, hfinished, hinactive⟩ := inactive_of_finishedWithOk h.1
  obtain ⟨a, ha, hlists⟩ := (any_eq_true _ _).mp h.2
  obtain ⟨hhanding, hlocal⟩ := of_decide_eq_true hlists
  exact ⟨σ, hσ, hpool, hinactive, fun hn => (hn "r1" a ha).1 hhanding,
    fun hr => hr "r1" hfinished a ha hlocal⟩

theorem busy_shard_no_residue : ∃ σ : ShardingSystem Unit,
    ShardingSystem.machine.Reach (fun (σ : ShardingSystem Unit) i => σ.careful i = true) σ ∧
      σ.finished.lookup "s" = some ("r1", true) ∧ σ.NoResidue := by
  obtain ⟨σ, hσ, h⟩ := Machine.Reach.exists_of_exec
    (c := fun (σ : ShardingSystem Unit) i => σ.careful i = true) (P := (finishedWithOk ·)) busy
    start_init (by decide +kernel)
  exact ⟨σ, hσ, (inactive_of_finishedWithOk h).2.1, handoff_leaves_no_residue hσ⟩

end IdleShard

end Kairo.Sharding
