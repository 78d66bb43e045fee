import Kairo.Sharding.HandingOff

/-!
# No start of a shard after its handoff

A region that has answered a handoff of a shard as stopped does not start the shard again before it is
told to host it.  What could start it is the timer of a restart that was scheduled earlier.  A local
`BeginHandOff` or `HandOff` suppresses a pending restart; the other handoffs do not, and here they have
to find none.
-/

namespace Kairo.Sharding

open Kairo.Lib Turn RegionEvent List FinMap Machine.Reach

variable {M Ref : Type}

namespace RegionEvent

def answersStopped (shard : ShardId) : RegionEvent M Ref → Bool
  | .sent (.reply _ (.handOff (.replyShardStopped s _ _)))
  | .sent (.reply _ (.localHandOff (.replyShardStopped s _ _)))
  | .sent (.reply _ (.completion (.completed s _)))
  | .sent (.remoteReply _ (.shardStopped s)) => s = shard
  | _ => false

def hosts (selfRegion : RegionId) (shard : ShardId) : RegionEvent M Ref → Bool
  | .received message => message.hosts selfRegion shard
  | _ => false

end RegionEvent

variable (selfRegion : RegionId) (shard : ShardId)

/-- A handoff of the shard was answered as stopped, and the region was not told to host it since. -/
def stoppedAfter (log : List (RegionEvent M Ref)) : Bool :=
  log.foldl (fun stopped e => e.answersStopped shard || stopped && !e.hosts selfRegion shard) false

/-- No shard is started where it is handed off. -/
def NoStart (log : List (RegionEvent M Ref)) : Prop :=
  ∀ before after shard uid, log = before ++ .sent (.spawnShard shard uid) :: after →
    stoppedAfter selfRegion shard before = false

variable {selfRegion shard} {log : List (RegionEvent M Ref)} {e : RegionEvent M Ref}

lemma stoppedAfter_append : stoppedAfter selfRegion shard (log ++ [e]) =
    (e.answersStopped shard || stoppedAfter selfRegion shard log && !e.hosts selfRegion shard) := by
  rw [stoppedAfter, foldl_append]
  rfl

lemma NoStart.append (h : NoStart selfRegion log)
    (he : ∀ s uid, e = .sent (.spawnShard s uid) → stoppedAfter selfRegion s log = false) :
    NoStart selfRegion (log ++ [e]) := by
  intro before after s uid heq
  rcases after.eq_nil_or_concat with rfl | ⟨after, x, rfl⟩
  · obtain ⟨rfl, hx⟩ := append_inj' heq rfl
    exact he s uid (cons.inj hx).1
  · rw [concat_eq_append, ← cons_append, ← append_assoc] at heq
    obtain ⟨rfl, _⟩ := append_inj' heq rfl
    exact h before after s uid rfl

namespace ShardRegionActor

/-- A pending restart of the shard, if there is one, is suppressed. -/
def RestartSuppressed (a : ShardRegionActor M Ref) (shard : ShardId) : Prop :=
  ∀ generation ∈ a.pendingLocalRestarts.lookup shard,
    a.suppressedLocalRestarts.lookup shard = some generation

instance (a : ShardRegionActor M Ref) (shard : ShardId) : Decidable (a.RestartSuppressed shard) :=
  inferInstanceAs (Decidable (∀ generation ∈ _, _))

end ShardRegionActor

open ShardRegionActor ShardRegionRuntime

def logged (log : List (RegionEvent M Ref)) (effects : List (RegionEffect M Ref)) :
    List (RegionEvent M Ref) :=
  log ++ effects.map .sent

lemma logged_append (effects : List (RegionEffect M Ref)) (e : RegionEffect M Ref) :
    logged log (effects ++ [e]) = logged log effects ++ [.sent e] := by
  rw [logged, map_append, ← append_assoc]
  rfl

/-- The condition on a region in a turn.  `starting` is a shard that is spawned and not marked as
started yet. -/
structure Safe (selfRegion : RegionId) (log : List (RegionEvent M Ref)) (starting : Option ShardId)
    (a : ShardRegionActor M Ref) (effects : List (RegionEffect M Ref)) : Prop where
  self : a.runtime.selfRegion = selfRegion
  noStart : NoStart selfRegion (logged log effects)
  forgotten : ∀ s, stoppedAfter selfRegion s (logged log effects) = true →
    s ∉ a.localShards ∧ a.RestartSuppressed s
  tracked : ∀ s ∈ a.localShards, s ∈ a.runtime.localShards ∨ starting = some s

variable {starting : Option ShardId} {a b : ShardRegionActor M Ref}
  {effects : List (RegionEffect M Ref)} {e : RegionEffect M Ref} {message : ShardRegionMsg M Ref}
  {s : ShardId}

/-! ## What keeps the condition -/

section

variable (h : Safe selfRegion log starting a effects)

include h

lemma Safe.of_same
    (hs : b.runtime.selfRegion = a.runtime.selfRegion) (hm : b.localShards = a.localShards)
    (hr : ∀ s ∈ a.runtime.localShards, s ∈ b.runtime.localShards)
    (hp : b.pendingLocalRestarts = a.pendingLocalRestarts)
    (hq : b.suppressedLocalRestarts = a.suppressedLocalRestarts) :
    Safe selfRegion log starting b effects where
  self := hs.trans h.self
  noStart := h.noStart
  forgotten s hst := by
    rw [hm, RestartSuppressed, hp, hq]
    exact h.forgotten s hst
  tracked s hsm := (h.tracked s (hm ▸ hsm)).imp_left (hr s)

/-- An effect that starts no shard, and answers handoffs only of shards without actor and without
pending restart. -/
lemma Safe.effect (hstart : ∀ s uid, e ≠ .spawnShard s uid)
    (hanswer : ∀ s, (sent e).answersStopped s = true → s ∉ a.localShards ∧ a.RestartSuppressed s) :
    Safe selfRegion log starting a (effects ++ [e]) := by
  refine ⟨h.self, ?_, fun t ht => ?_, h.tracked⟩
  · rw [logged_append]
    exact h.noStart.append fun s uid he => absurd (sent.inj he) (hstart s uid)
  · rw [logged_append, stoppedAfter_append, Bool.or_eq_true, Bool.and_eq_true] at ht
    exact ht.elim (hanswer t) fun ht => h.forgotten t ht.1

lemma Safe.quiet (hstart : ∀ s uid, e ≠ .spawnShard s uid)
    (hanswer : ∀ s, (sent e).answersStopped s = false) :
    Safe selfRegion log starting a (effects ++ [e]) :=
  h.effect hstart fun s hs => by cases (hanswer s).symm.trans hs

end

/-- **An answer of a handoff as stopped**, for a shard without actor and without pending restart. -/
theorem Safe.answer (h : Safe selfRegion log starting a effects)
    (hstart : ∀ s uid, e ≠ .spawnShard s uid)
    (hanswer : ∀ t, (sent e).answersStopped t = true → t = s)
    (hs : s ∉ a.localShards) (hr : a.RestartSuppressed s) :
    Safe selfRegion log starting a (effects ++ [e]) :=
  h.effect hstart fun t ht => hanswer t ht ▸ ⟨hs, hr⟩

/-- **A start** of a shard that is not handed off. -/
theorem Safe.spawn (h : Safe selfRegion log none a effects) {uid : ℕ}
    (hs : stoppedAfter selfRegion s (logged log effects) = false) :
    Safe selfRegion log (some s) { a with localShards := a.localShards.insert s uid }
      (effects ++ [.spawnShard s uid]) := by
  have hsame : ∀ t, stoppedAfter selfRegion t
      (logged log effects ++ [.sent (.spawnShard s uid)]) =
        stoppedAfter selfRegion t (logged log effects) := by
    intro t
    rw [stoppedAfter_append]
    simp [hosts, answersStopped]
  refine ⟨h.self, ?_, fun t ht => ?_, fun t ht => ?_⟩
  · rw [logged_append]
    refine h.noStart.append fun t uid' he => ?_
    cases he
    exact hs
  · rw [logged_append, hsame] at ht
    obtain ⟨hm, hr⟩ := h.forgotten t ht
    refine ⟨fun hin => ?_, hr⟩
    rcases Finmap.mem_insert.mp hin with rfl | hin
    · cases hs.symm.trans ht
    · exact hm hin
  · rcases Finmap.mem_insert.mp ht with rfl | ht
    · exact .inr rfl
    · exact (h.tracked t ht).imp_right nofun

lemma answersStopped_of_isPlain (he : e.isPlain = true) (s : ShardId) :
    (sent e).answersStopped s = false := by
  unfold answersStopped
  split <;> rename_i hc <;> first | rfl | (cases hc; cases he)

lemma plain_safe : Plain AnyFailure (Safe selfRegion log starting) where
  fails _ := trivial
  same hs h := h.of_same hs.selfRegion hs.localShards (fun _ => hs.runtimeShards ▸ id) hs.pending
    hs.suppressed
  send {a ws e} he h := by
    refine h.quiet (fun s uid hc => ?_) (answersStopped_of_isPlain he)
    rw [hc] at he
    cases he

abbrev Failed (selfRegion : RegionId) (log : List (RegionEvent M Ref)) (e : RegionFailure)
    (a : ShardRegionActor M Ref) (effects : List (RegionEffect M Ref)) : Prop :=
  AnyFailure e ∧ Safe selfRegion log none a effects

/-! ## Hosting -/

section

variable (env : RegionEnv)

lemma Safe.of_sameLists {rt : ShardRegionRuntime M} (h : Safe selfRegion log starting a effects)
    (hs : SameLists a.runtime rt) : Safe selfRegion log starting { a with runtime := rt } effects :=
  h.of_same hs.self rfl (fun _ hm => hs.hosted ▸ hm) rfl rfl

/-- A plan that starts a shard starts one that is not handed off. -/
def OpenFor (selfRegion : RegionId) (log : List (RegionEvent M Ref)) (starts : Option ShardId)
    (a : ShardRegionActor M Ref) (effects : List (RegionEffect M Ref)) : Prop :=
  Safe selfRegion log none a effects ∧
    ∀ s ∈ starts, stoppedAfter selfRegion s (logged log effects) = false

lemma plain_openFor (starts : Option ShardId) : Plain AnyFailure (OpenFor selfRegion log starts) where
  fails _ := trivial
  same hs h := ⟨plain_safe.same hs h.1, h.2⟩
  send {a ws e} he h := by
    have hnext := plain_safe.send he h.1
    refine ⟨hnext, fun s hs => ?_⟩
    rw [logged_append, stoppedAfter_append, answersStopped_of_isPlain he, h.2 s hs]
    rfl

lemma startsShard (s : ShardId) :
    Triple (OpenFor selfRegion log (some s)) (spawnLocalShard env s : RegionTurn M Ref Unit)
      (fun _ => Safe selfRegion log (some s)) (Failed selfRegion log) := by
  refine .read fun a => ?_
  split
  · refine .pure fun a' ws h => ?_
    exact { h.1 with tracked := fun t ht => (h.1.tracked t ht).imp_right nofun }
  · refine .bind (.check fun _ _ h => ⟨trivial, h.1⟩) fun _ => .bind
      (.send fun a' ws h => h.1.spawn (h.2 s rfl)) fun _ => .update fun a' ws h => h

lemma marksStarted (s : ShardId) :
    Triple (Safe selfRegion log (some s)) (withRuntime (·.markShardStarted s) : RegionTurn M Ref _)
      (fun _ => Safe selfRegion log none) (Failed selfRegion log) := by
  refine .updateGet fun a ws h => ?_
  obtain ⟨hself, _, hlocal⟩ := lists_markShardStarted a.runtime s
  refine ⟨hself.trans h.self, h.noStart, h.forgotten, fun t ht => .inl ?_⟩
  rw [hlocal]
  rcases h.tracked t ht with hm | hm
  · exact Finset.mem_insert_of_mem hm
  · cases hm
    exact Finset.mem_insert_self _ _

lemma keeps_markShardStarted (s : ShardId) : Keeps AnyFailure (Safe selfRegion log none)
    (withRuntime (·.markShardStarted s) : RegionTurn M Ref _) :=
  (marksStarted s).pre fun _ _ h =>
    { h with tracked := fun t ht => (h.tracked t ht).imp_right nofun }

def HomeOpen (selfRegion : RegionId) (log : List (RegionEvent M Ref)) (s : ShardId)
    (region : RegionId) (a : ShardRegionActor M Ref) (effects : List (RegionEffect M Ref)) : Prop :=
  Safe selfRegion log none a effects ∧
    (region = selfRegion → stoppedAfter selfRegion s (logged log effects) = false)

/-- Shards are hosted where they are not handed off. -/
def safeHosting (selfRegion : RegionId) (log : List (RegionEvent M Ref)) : Hosting M Ref where
  holds := Safe selfRegion log none
  opens := OpenFor selfRegion log
  spawned s := Safe selfRegion log (some s)
  homes := HomeOpen selfRegion log
  plain := plain_safe
  plain_opens := plain_openFor
  of_opens h := h.1
  deliver h := h.quiet (nofun) fun _ => rfl
  forward h := h.quiet (nofun) fun _ => rfl
  requests _ h := h.of_same rfl rfl (fun _ => id) rfl rfl
  requests_opens _ h := ⟨h.1.of_same rfl rfl (fun _ => id) rfl rfl, h.2⟩
  route s message h := h.of_sameLists (sameLists_route _ s message)
  host := hostsShard Safe.of_sameLists
  spawn := startsShard
  mark := marksStarted
  record := recordsHome (P := Safe selfRegion log none) Safe.of_sameLists Safe.self

/-! ## Stops and restarts -/

/-- The timer of a restart that is not suppressed belongs to a shard that is not handed off. -/
lemma restarts (s : ShardId) (generation : ℕ) :
    Keeps AnyFailure (Safe selfRegion log none)
    (restartLocalShard env s generation : RegionTurn M Ref _) := by
  refine Triple.readEq fun a => ?_
  split
  · refine .pure fun a' ws h => ?_
    obtain ⟨rfl, h⟩ := h
    exact h
  · rename_i hpending
    have hpending : a.pendingLocalRestarts.lookup s = some generation := not_not.mp hpending
    refine .bind (Q := fun _ a' ws => Safe selfRegion log none a' ws ∧
      a'.pendingLocalRestarts.lookup s = none ∧
      (a.suppressedLocalRestarts.lookup s ≠ some generation →
        stoppedAfter selfRegion s (logged log ws) = false)) ?_ fun _ => ?_
    · refine .update fun a' ws h => ?_
      obtain ⟨rfl, h⟩ := h
      have hnone : (a'.pendingLocalRestarts.erase s).lookup s = none := by
        rw [lookup_erase, if_pos rfl]
      refine ⟨{ h with forgotten := fun t ht => ?_ }, hnone, fun hne => ?_⟩
      · obtain ⟨hm, hr⟩ := h.forgotten t ht
        exact ⟨hm, fun g hg => hr g (of_lookup_erase hg)⟩
      · refine Bool.eq_false_iff.mpr fun hs => hne ?_
        exact (h.forgotten s hs).2 generation hpending
    · split
      · refine .update fun a' ws h => ?_
        refine { h.1 with forgotten := fun t ht => ?_ }
        obtain ⟨hm, hr⟩ := h.1.forgotten t ht
        refine ⟨hm, fun g hg => ?_⟩
        rw [lookup_erase]
        split
        · rename_i hts
          subst hts
          cases h.2.1.symm.trans hg
        · exact hr g hg
      · split
        · exact .pure fun _ _ h => h.1
        · rename_i hne _
          refine .bind (((safeHosting selfRegion log).hostsShardTurn env s).pre fun _ _ h =>
            ⟨h.1, fun t ht => ?_⟩) fun _ => Keeps.pure _
          cases ht
          exact h.2.2 hne

lemma Safe.forget (h : Safe selfRegion log none a effects) (s : ShardId) :
    Safe selfRegion log none { a with
      runtime := a.runtime.markShardStopped s
      localShards := a.localShards.erase s } effects where
  self := (lists_markShardStopped a.runtime s).1.trans h.self
  noStart := h.noStart
  forgotten t ht := by
    obtain ⟨hm, hr⟩ := h.forgotten t ht
    exact ⟨fun hin => hm (Finmap.mem_erase.mp hin).2, hr⟩
  tracked t ht := by
    obtain ⟨hne, hin⟩ := Finmap.mem_erase.mp ht
    refine .inl ?_
    rw [(lists_markShardStopped a.runtime s).2.2]
    exact Finset.mem_erase.mpr ⟨hne, (h.tracked t hin).resolve_right nofun⟩

lemma keeps_markLocalShardStopped (s : ShardId) :
    Keeps AnyFailure (Safe selfRegion log none) (markLocalShardStopped s : RegionTurn M Ref Unit) := by
  refine Triple.readEq fun a => ?_
  refine .bind (Q := fun _ a' ws => Safe selfRegion log none a' ws ∧
    (s ∈ a.localShards → stoppedAfter selfRegion s (logged log ws) = false)) ?_ fun _ => ?_
  · refine .update fun a' ws h => ?_
    obtain ⟨rfl, h⟩ := h
    refine ⟨h.forget s, fun hin => Bool.eq_false_iff.mpr fun hs => ?_⟩
    exact (h.forgotten s hs).1 hin
  · cases hb : a.rememberedShardRestartBackoff s with
    | none => exact .pure fun _ _ h => h.1
    | some backoff =>
      have hin : s ∈ a.localShards := by
        by_contra hnot
        rw [rememberedShardRestartBackoff, if_pos hnot] at hb
        cases hb
      refine .bind (.updateGet fun a' ws h => ?_) fun generation => keeps_sendPlain plain_safe rfl
      refine { h.1 with forgotten := fun t ht => ?_ }
      obtain ⟨hm, hr⟩ := h.1.forgotten t ht
      have hts : t ≠ s := by
        rintro rfl
        cases (h.2 hin).symm.trans ht
      refine ⟨hm, fun g hg => ?_⟩
      rw [lookup_erase, if_neg hts]
      refine hr g ?_
      rwa [lookup_insert, if_neg hts] at hg

/-! ## Handoffs -/

def Handable (selfRegion : RegionId) (log : List (RegionEvent M Ref)) (s : ShardId)
    (a : ShardRegionActor M Ref) (effects : List (RegionEffect M Ref)) : Prop :=
  Safe selfRegion log none a effects ∧ a.RestartSuppressed s

lemma suppresses (s : ShardId) :
    Triple (Safe selfRegion log none) (suppressPendingLocalRestart s : RegionTurn M Ref Unit)
      (fun _ => Handable selfRegion log s) (Failed selfRegion log) := by
  refine .update fun a ws h => ?_
  cases hp : a.pendingLocalRestarts.lookup s with
  | none =>
    refine ⟨h, fun g hg => ?_⟩
    cases hp.symm.trans hg
  | some generation =>
    have hself : ∀ g, a.pendingLocalRestarts.lookup s = some g →
        (a.suppressedLocalRestarts.insert s generation).lookup s = some g := by
      intro g hg
      rw [Finmap.lookup_insert, ← hp, hg]
    refine ⟨{ h with forgotten := fun t ht => ?_ }, hself⟩
    obtain ⟨hm, hr⟩ := h.forgotten t ht
    refine ⟨hm, fun g hg => ?_⟩
    by_cases hts : t = s
    · subst hts
      exact hself g hg
    · rw [lookup_insert, if_neg hts]
      exact hr g hg

lemma stops_step {stopped : Option ShardId} (he : HandOffStep message e stopped) :
    (∀ s uid, e ≠ .spawnShard s uid) ∧
      ∀ t, (sent e).answersStopped t = true → stopped = some t := by
  cases he with
  | planned =>
    refine ⟨nofun, fun t ht => ?_⟩
    rename_i plan
    cases plan with
    | forwardToLocalShard _ _ => cases ht
    | replyShardStopped _ _ _ => exact congrArg some (of_decide_eq_true ht)
  | localPlan =>
    refine ⟨nofun, fun t ht => ?_⟩
    rename_i plan _
    cases plan with
    | replyShardStopped _ _ _ => exact congrArg some (of_decide_eq_true ht)
    | forwardedToLocalShard _ _ | missingLocalShard _ _ => cases ht
  | stopped _ | completed => exact ⟨nofun, fun t ht => congrArg some (of_decide_eq_true ht)⟩
  | _ => exact ⟨nofun, nofun⟩

end

/-! ## The turn and the run -/

/-- The shard whose handoff a message may complete without suppressing a pending restart. -/
def ShardRegionMsg.mayStop : ShardRegionMsg M Ref → Option ShardId
  | .remoteHandOff s _ | .handOffToLocalShard s _ _ _ | .localShardHandOffStopperResult s _ _
  | .remoteLocalShardHandOffStopperResult s _ _
  | .remoteLocalShardHandOffObserved (.replyShardStopped s) _ _
  | .remoteLocalShardHandOffObserved (.stopImmediately s _ _) _ _ => some s
  | _ => none

/-- A handoff that does not suppress a pending restart of the shard finds none. -/
def RestartsSuppressed (r : RegionRun M Ref) (x : RegionEnv × ShardRegionMsg M Ref) : Prop :=
  ∀ s ∈ x.2.mayStop, r.actor.RestartSuppressed s

instance (r : RegionRun M Ref) (x : RegionEnv × ShardRegionMsg M Ref) :
    Decidable (RestartsSuppressed r x) :=
  inferInstanceAs (Decidable (∀ s ∈ _, _))

def Before (selfRegion : RegionId) (log : List (RegionEvent M Ref)) (message : ShardRegionMsg M Ref)
    (a : ShardRegionActor M Ref) (effects : List (RegionEffect M Ref)) : Prop :=
  Safe selfRegion (log ++ [.received message]) none a effects ∧ effects = [] ∧
    ∀ s ∈ message.mayStop, a.RestartSuppressed s

def safeHandingOff (selfRegion : RegionId) (log : List (RegionEvent M Ref))
    (message : ShardRegionMsg M Ref) : HandingOff message where
  fails := AnyFailure
  start := Before selfRegion log message
  holds := Safe selfRegion (log ++ [.received message]) none
  ready := Handable selfRegion (log ++ [.received message])
  due := Handable selfRegion (log ++ [.received message])
  gone s a effects :=
    Handable selfRegion (log ++ [.received message]) s a effects ∧ s ∉ a.localShards
  plain := plain_safe
  of_start h := h.1
  of_due h := h.1
  of_gone h := h.1.1
  readies {s _ _} hm hne h := by
    refine ⟨h.1, h.2.2 s ?_⟩
    unfold ShardRegionMsg.handsOff at hm
    split at hm
    · cases hm
      exact absurd rfl (hne _)
    · exact hm
    · exact hm
    · cases hm
  dues {s _ _} hm h := by
    refine ⟨h.1, h.2.2 s ?_⟩
    unfold ShardRegionMsg.completes at hm
    split at hm <;> first | exact hm | cases hm
  suppresses _ := (suppresses _).pre fun _ _ h => h.1
  plans {s} _ := by
    refine .updateGet fun a ws h => ?_
    obtain ⟨hs, hl, hp⟩ := lists_handoff a.runtime s
    have hnext := h.1.of_same (b := { a with runtime := (a.runtime.handoff s).1 }) hs rfl
      (fun _ hm => hl ▸ hm) rfl rfl
    rcases hp with ⟨_, dropped, hplan, _⟩ | ⟨hnot, dropped, hplan, _⟩
    · exact .inl ⟨⟨dropped, hplan⟩, hnext, h.2⟩
    · refine .inr ⟨⟨dropped, hplan⟩, ⟨hnext, h.2⟩, fun hin => hnot ?_⟩
      exact (h.1.tracked s hin).resolve_right nofun
  stop h := ⟨h.1.quiet nofun fun _ => rfl, h.2⟩
  forget h := ⟨⟨h.1.forget _, h.2⟩, fun hin => (Finmap.mem_erase.mp hin).1 rfl⟩
  step he h := h.quiet (stops_step he).1 fun t => Bool.eq_false_iff.mpr fun ht =>
    nomatch (stops_step he).2 t ht
  answer he h := h.1.1.answer (stops_step he).1
    (fun t ht => (Option.some.inj ((stops_step he).2 t ht)).symm) h.2 h.1.2

lemma Before.notStopped (h : Before selfRegion log message a effects)
    (hs : (received message).hosts selfRegion s = true) :
    stoppedAfter selfRegion s (logged (log ++ [.received message]) effects) = false := by
  rw [h.2.1, logged, map_nil, append_nil, stoppedAfter_append, hs]
  simp [answersStopped]

lemma Before.openFor (h : Before selfRegion log message a effects)
    (hs : (received message).hosts selfRegion s = true) :
    OpenFor selfRegion (log ++ [.received message]) (some s) a effects := by
  refine ⟨h.1, fun t ht => ?_⟩
  cases ht
  exact h.notStopped hs

/-- **One turn** keeps the condition, and leaves it true when it fails. -/
theorem receive_safe (env : RegionEnv) (message : ShardRegionMsg M Ref) :
    Triple (Before selfRegion log message) (receive env message)
      (fun _ => Safe selfRegion (log ++ [.received message]) none)
      (Failed selfRegion (log ++ [.received message])) := by
  by_cases hh : message.isHandOff = true
  · exact (safeHandingOff selfRegion log message).receives env hh
  refine (safeHosting selfRegion (log ++ [received message])).receives env hh
    (S := Before selfRegion log message) (·.1) (fun h s hs => h.openFor ?_)
    (fun h x hx => ⟨h.1, fun hr => h.notStopped ?_⟩)
    (fun s _ _ => keeps_markShardStarted s) (fun s => ?_) keeps_markLocalShardStopped
    fun s g _ => restarts env s g
  · exact decide_eq_true (.inl hs)
  · exact decide_eq_true (.inr (hr ▸ hx))
  · exact (suppresses s).weaken (fun _ _ h => h) (fun _ _ _ h => h.1) fun _ _ _ h => h

namespace RegionRun

variable {r r' : RegionRun M Ref}

lemma safe_received (h : Safe selfRegion log none a []) (message : ShardRegionMsg M Ref) :
    Safe selfRegion (log ++ [.received message]) none a [] := by
  have hlog : ∀ l : List (RegionEvent M Ref), logged l [] = l := fun l => append_nil l
  refine ⟨h.self, ?_, fun s hs => h.forgotten s ?_, h.tracked⟩
  · rw [hlog]
    exact (hlog log ▸ h.noStart).append nofun
  · rw [hlog] at hs ⊢
    rw [stoppedAfter_append] at hs
    simp only [answersStopped, Bool.false_or, Bool.and_eq_true] at hs
    exact hs.1

lemma safe_step {x : RegionEnv × ShardRegionMsg M Ref}
    (h : Safe selfRegion r.log none r.actor []) (hx : RestartsSuppressed r x)
    (ht : r.step x = some r') : Safe selfRegion r'.log none r'.actor [] := by
  obtain ⟨_, effects, hlog, hturn⟩ := exists_turn ht
  have hpost := receive_safe x.1 x.2 r.actor [] ⟨safe_received h x.2, rfl, hx⟩
  have hsafe : Safe selfRegion (r.log ++ [.received x.2]) none r'.actor effects := by
    rcases hturn with ⟨hok, _⟩ | ⟨e, herr, _⟩
    · rw [hok] at hpost
      exact hpost
    · rw [herr] at hpost
      exact hpost.2
  have hnil : logged r'.log [] = logged (r.log ++ [.received x.2]) effects := by
    rw [hlog, logged, logged, map_nil, append_nil]
  exact ⟨hsafe.self, hnil ▸ hsafe.noStart, fun s hs => hsafe.forgotten s (hnil ▸ hs), hsafe.tracked⟩

/-- **No start after a handoff.**  In every run of a region in which each handoff that does not
suppress a pending restart of its shard finds none: once a handoff of a shard is answered as stopped,
the shard is not started before the region is told to host it or that it is its home. -/
theorem no_start_after_handoff (h : machine.Reach RestartsSuppressed r) :
    NoStart r.actor.runtime.selfRegion r.log := by
  have hsafe : ∃ selfRegion, Safe selfRegion r.log none r.actor [] := by
    refine invariant (I := fun r => ∃ self, Safe self r.log none r.actor [])
      (fun r h0 => ?_) (fun r x r' hi hx ht => ?_) h
    · obtain ⟨hlog, _, _, _, hshards, hpending⟩ := h0
      refine ⟨r.actor.runtime.selfRegion, rfl, ?_, ?_, ?_⟩
      · rw [hlog]
        intro before after s uid hc
        cases before <;> cases hc
      · intro s hs
        rw [hlog] at hs
        cases hs
      · rw [hshards]
        exact fun s hs => absurd hs Finmap.notMem_empty
    · obtain ⟨self, hi⟩ := hi
      exact ⟨self, safe_step hi hx ht⟩
  obtain ⟨self, hsafe⟩ := hsafe
  obtain rfl := hsafe.self
  have hnil : logged r.log ([]) = r.log := append_nil _
  exact hnil ▸ hsafe.noStart

end RegionRun

/-! ## A restart timer and a remote handoff -/

namespace DelayedRestart

open RegionRun

/-- A region that spawns its shards and restarts those that remember their entities. -/
def region : RegionRun Unit Unit :=
  ⟨{ ShardRegionActor.new "self" 10 with localShardSpawner := some ⟨10, some 5⟩ }, [], none⟩

def env : RegionEnv := ⟨"region", ∅, ∅, ∅, ∅, ∅, 7, false, false⟩

/-- A hosted shard crashes, is handed off to a remote coordinator, and the restart timer fires. -/
def remoteHandOff : List (RegionEnv × ShardRegionMsg Unit Unit) :=
  [(env, .hostShard "s" ()), (env, .terminated (.shard "s" 7)), (env, .remoteHandOff "s" ()),
    (env, .restartLocalShard "s" 1)]

/-- The last event starts a shard that was answered as stopped. -/
def startsStopped (r : RegionRun Unit Unit) : Bool :=
  match r.log.getLast? with
  | some (.sent (.spawnShard s _)) => stoppedAfter r.actor.runtime.selfRegion s r.log.dropLast
  | _ => false

lemma not_noStart {r : RegionRun Unit Unit} (h : startsStopped r = true) :
    ¬ NoStart r.actor.runtime.selfRegion r.log := by
  unfold startsStopped at h
  split at h
  · rename_i s uid hlast
    intro hno
    obtain ⟨before, hlog⟩ := getLast?_eq_some_iff.mp hlast
    rw [hlog, dropLast_concat] at h
    cases (hno before [] s uid hlog).symm.trans h
  · cases h

/-- The shard that was answered as stopped is started. -/
theorem restart_after_handoff :
    ∃ r : RegionRun Unit Unit, machine.Reachable r ∧ ¬ NoStart r.actor.runtime.selfRegion r.log := by
  obtain ⟨r, hr, h⟩ := exists_of_exec (M := machine) (c := fun _ _ => True) (s := region)
    (P := (startsStopped ·)) remoteHandOff ⟨rfl, rfl, rfl, rfl, rfl, rfl⟩ (by decide +kernel)
  exact ⟨r, hr, not_noStart h⟩

/-- The same run with a local handoff, and the shard hosted again afterwards. -/
def localHandOff : List (RegionEnv × ShardRegionMsg Unit Unit) :=
  [(env, .hostShard "s" ()), (env, .terminated (.shard "s" 7)), (env, .handOff "s" ()),
    (env, .restartLocalShard "s" 1), (env, .hostShard "s" ())]

theorem no_start_after_local_handoff :
    ∃ r : RegionRun Unit Unit, machine.Reach RestartsSuppressed r ∧ r.log.length = 11 ∧
      NoStart r.actor.runtime.selfRegion r.log := by
  obtain ⟨r, hr, h⟩ := exists_of_exec (M := machine) (c := RestartsSuppressed)
    (s := region) (P := fun r => r.log.length = 11) localHandOff
    ⟨rfl, rfl, rfl, rfl, rfl, rfl⟩ (by decide +kernel)
  exact ⟨r, hr, h, no_start_after_handoff hr⟩

end DelayedRestart

end Kairo.Sharding
