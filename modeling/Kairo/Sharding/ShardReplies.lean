import Kairo.Sharding.EntityShard

/-!
# The references a shard answers

Between its turns a shard keeps the references of handoffs that wait for the remember store and of those
that wait for the entity stopper.  It answers only references that came with a command to it: a
condition on the references of the commands holds of all that are kept and all that are answered.
-/

namespace Kairo.Sharding

open Kairo.Lib Turn List

variable {M Ref : Type}

def HandOffReplyTo.target : HandOffReplyTo Ref → Ref
  | .ref replyTo => replyTo
  | .observed _ reply => reply

def StopperReplyTo.target : StopperReplyTo Ref → Ref
  | .completion replyTo => replyTo
  | .remote reply => reply

/-- The references of a handoff in a message. -/
def ShardMsg.Bears (P : Ref → Prop) : ShardMsg M Ref → Prop
  | .handOff _ replyTo => P replyTo.target
  | .handOffStopperTerminated replyTo => P replyTo.target
  | _ => True

/-- The references of a handoff that are answered. -/
def ShardEffect.Bears (P : Ref → Prop) : ShardEffect M Ref → Prop
  | .planned replyTo _ => P replyTo.target
  | .answered replyTo _ => P replyTo.target
  | _ => True

/-- A condition on all the references of handoffs, kept or answered. -/
structure Bearing (P : Ref → Prop) (a : EntityShard M Ref) (effects : List (ShardEffect M Ref)) :
    Prop where
  stashed : ∀ m ∈ a.stashed, ShardMsg.Bears P m
  pending : ∀ x ∈ a.pendingHandoffs, P x.2.target
  waiters : ∀ x ∈ a.handoffCompletionWaiters, P x.target
  sent : ∀ e ∈ effects, ShardEffect.Bears P e

namespace EntityShard

abbrev KeepsRefs {α : Type} (M : Type) (P : Ref → Prop) (t : ShardTurn M Ref α) : Prop :=
  Keeps AnyFailure (Bearing P) t

variable {P : Ref → Prop} (env : ShardEnv) {m : ShardMsg M Ref} {replyTo : HandOffReplyTo Ref}

lemma keepsRefs_update {f : EntityShard M Ref → EntityShard M Ref}
    (hf : ∀ a, (f a).stashed = a.stashed ∧ (f a).pendingHandoffs = a.pendingHandoffs ∧
      (f a).handoffCompletionWaiters = a.handoffCompletionWaiters) :
    KeepsRefs M P (update f) := by
  refine .update fun a ws h => ?_
  obtain ⟨hs, hp, hw⟩ := hf a
  exact ⟨hs ▸ h.stashed, hp ▸ h.pending, hw ▸ h.waiters, h.sent⟩

lemma keepsRefs_runtime {α : Type} (f : ShardRuntime M → ShardRuntime M × α) :
    KeepsRefs M P (withRuntime f) :=
  .updateGet fun _ _ h => ⟨h.stashed, h.pending, h.waiters, h.sent⟩

lemma keepsRefs_send {e : ShardEffect M Ref} (he : e.Bears P) :
    KeepsRefs M P (Turn.send e) := by
  refine .send fun a ws h => ⟨h.stashed, h.pending, h.waiters, ?_⟩
  exact forall_mem_append.mpr ⟨h.sent, forall_mem_singleton.mpr he⟩

/-! ## Entities -/

variable (entityId : EntityId)

lemma keepsRefs_ensureEntityChild : KeepsRefs M P (ensureEntityChild env entityId) := by
  refine .read fun a => ?_
  split
  · exact .pure _
  · exact .bind (.check trivial) fun _ => .bind (keepsRefs_send trivial) fun _ =>
      keepsRefs_update fun _ => ⟨rfl, rfl, rfl⟩

lemma keepsRefs_tellEntity (message : M) : KeepsRefs M P (tellEntity env entityId message) :=
  .bind (.check trivial) fun _ => keepsRefs_send trivial

lemma keepsRefs_deliverToEntity (delivery : EntityDelivery M) :
    KeepsRefs M P (deliverToEntity env delivery) :=
  .bind (keepsRefs_ensureEntityChild env _) fun _ => keepsRefs_tellEntity env _ _

lemma keepsRefs_tellChild (message : M) : KeepsRefs M P (tellChild env entityId message) := by
  refine .read fun a => ?_
  split
  · exact keepsRefs_tellEntity env _ _
  · exact .pure _

lemma keepsRefs_sendRememberUpdate (next : Option RememberShardUpdate) :
    KeepsRefs M P (sendRememberUpdate env next) := by
  refine .read fun a => ?_
  split
  · split
    · exact .bind (.check trivial) fun _ => keepsRefs_send trivial
    · exact .pure _
  · exact .pure _

lemma keepsRefs_applyDeliverPlan (plan : ShardDeliverPlan M) :
    KeepsRefs M P (applyDeliverPlan env plan) := by
  unfold applyDeliverPlan
  split
  · exact keepsRefs_deliverToEntity env _
  · exact keepsRefs_deliverToEntity env _
  · exact keepsRefs_sendRememberUpdate env _
  · exact .pure _

lemma keepsRefs_applyRestartPlan (plan : RestartRememberedEntityPlan) :
    KeepsRefs M P (applyRestartPlan env plan) := by
  unfold applyRestartPlan
  split
  · exact keepsRefs_ensureEntityChild env _
  · exact .pure _

lemma keepsRefs_applyTerminationPlan (plan : EntityTerminatedPlan M) :
    KeepsRefs M P (applyTerminationPlan env plan) := by
  unfold applyTerminationPlan
  split
  · exact .forM fun _ _ => keepsRefs_deliverToEntity env _
  · exact .bind (keepsRefs_runtime _) fun _ => keepsRefs_applyRestartPlan env _
  · exact keepsRefs_sendRememberUpdate env _
  · exact .pure _

/-! ## Handoffs -/

lemma keepsRefs_completeHandoffWaiters :
    KeepsRefs M P completeHandoffWaiters :=
  .drain (fun a _ h => ⟨⟨h.stashed, h.pending, by simp, h.sent⟩, h.waiters⟩)
    fun x hx => keepsRefs_send hx

lemma keepsRefs_completeHandoffIfReady :
    KeepsRefs M P completeHandoffIfReady := by
  refine .read fun a => ?_
  split
  · exact .pure _
  · exact .bind (keepsRefs_runtime _) fun _ => keepsRefs_completeHandoffWaiters

lemma keepsRefs_planHandoff (stopMessage : M) (h : P replyTo.target) :
    KeepsRefs M P (planHandoff env stopMessage replyTo) := by
  refine .bind (keepsRefs_runtime _) fun plan => ?_
  have hsend : KeepsRefs M P (Turn.send (.planned replyTo plan)) := keepsRefs_send h
  cases plan with
  | startEntityStopper s entities stop | stopImmediately s entities stop =>
    exact .bind (.forM fun _ _ => keepsRefs_tellChild env _ _) fun _ => hsend
  | replyShardStopped s | alreadyInProgress s => exact hsend

lemma keepsRefs_applyHandoff (stopMessage : M) (h : P replyTo.target) :
    KeepsRefs M P (applyHandoff env stopMessage replyTo) := by
  refine .read fun a => ?_
  split
  · refine .update fun a ws hb => ⟨hb.stashed, ?_, hb.waiters, hb.sent⟩
    exact forall_mem_append.mpr ⟨hb.pending, forall_mem_singleton.mpr h⟩
  · exact keepsRefs_planHandoff env stopMessage h

lemma keepsRefs_drainPendingHandoffs :
    KeepsRefs M P (drainPendingHandoffs env) := by
  refine .read fun a => ?_
  split
  · exact .pure _
  · exact .drain (fun a _ h => ⟨⟨h.stashed, by simp, h.waiters, h.sent⟩, h.pending⟩)
      fun x hx => keepsRefs_planHandoff env x.1 hx

lemma keepsRefs_applyStopperTerminated {replyTo : StopperReplyTo Ref} (h : P replyTo.target) :
    KeepsRefs M P (applyStopperTerminated replyTo) := by
  refine .read fun a => ?_
  split
  · exact keepsRefs_send h
  · split
    · exact .bind (keepsRefs_runtime _) fun _ => .bind (keepsRefs_send h) fun _ =>
        keepsRefs_completeHandoffWaiters
    · refine .update fun a ws hb => ⟨hb.stashed, hb.pending, ?_, hb.sent⟩
      exact forall_mem_append.mpr ⟨hb.waiters, forall_mem_singleton.mpr h⟩

/-! ## The turn -/

lemma keepsRefs_applyEntityTerminated : KeepsRefs M P (applyEntityTerminated env entityId) :=
  .bind (keepsRefs_update fun _ => ⟨rfl, rfl, rfl⟩) fun _ => .bind (keepsRefs_runtime _) fun _ =>
    .bind (keepsRefs_applyTerminationPlan env _) fun _ => keepsRefs_completeHandoffIfReady

lemma keepsRefs_applyRememberedEntities (entities : List EntityId) :
    KeepsRefs M P (applyRememberedEntities env entities) :=
  .bind (keepsRefs_runtime _) fun _ => .forM fun _ _ => keepsRefs_ensureEntityChild env _

lemma keepsRefs_applyUpdateDone (done : RememberShardUpdate) :
    KeepsRefs M P (applyUpdateDone env done) :=
  .bind (keepsRefs_runtime _) fun _ => .bind (.forM fun _ _ => keepsRefs_deliverToEntity env _) fun _ =>
    .bind (keepsRefs_sendRememberUpdate env _) fun _ => keepsRefs_drainPendingHandoffs env

lemma keepsRefs_removeMoved : KeepsRefs M P (removeMoved entityId) := by
  refine .read fun a => ?_
  split
  · exact .bind (keepsRefs_update fun _ => ⟨rfl, rfl, rfl⟩) fun _ => keepsRefs_send trivial
  · exact .pure _

lemma keepsRefs_receiveInitialized (hm : m.Bears P) :
    KeepsRefs M P (receiveInitialized env m) := by
  cases m with
  | deliver message replyTo =>
    exact .bind (keepsRefs_runtime _) fun plan => .bind (keepsRefs_applyDeliverPlan env plan) fun _ =>
      keepsRefs_send trivial
  | passivate entityId stopMessage =>
    refine .bind (keepsRefs_runtime _) fun plan => ?_
    split
    · exact keepsRefs_tellChild env _ _
    · exact .pure _
  | entityTerminated entityId => exact keepsRefs_applyEntityTerminated env entityId
  | observedEntityTerminated entityId uid =>
    refine .read fun a => ?_
    split
    · exact keepsRefs_applyEntityTerminated env entityId
    · exact .pure _
  | restartRememberedEntity entityId =>
    exact .bind (keepsRefs_runtime _) fun _ => keepsRefs_applyRestartPlan env _
  | rememberedEntitiesMovedToOtherShard entities =>
    exact .bind (keepsRefs_runtime _) fun _ => .bind (.forM fun _ _ => keepsRefs_removeMoved _) fun _ =>
      keepsRefs_sendRememberUpdate env _
  | handOff stopMessage replyTo => exact keepsRefs_applyHandoff env stopMessage hm
  | handOffStopperTerminated replyTo => exact keepsRefs_applyStopperTerminated hm
  | recoverRememberedEntities entities | rememberedEntitiesLoaded entities =>
    exact keepsRefs_applyRememberedEntities env entities
  | rememberStoreLoadResult result =>
    cases result with
    | some _ => exact .pure _
    | none => exact keepsRefs_send trivial
  | rememberUpdateDone done => exact keepsRefs_applyUpdateDone env done
  | rememberStoreUpdateResult result =>
    cases result with
    | some done => exact keepsRefs_applyUpdateDone env done
    | none => exact keepsRefs_send trivial
  | setPreparingForShutdown preparing =>
    rw [receiveInitialized]
    exact keepsRefs_update fun _ => ⟨rfl, rfl, rfl⟩
  | getState => exact .pure _

lemma keepsRefs_replayStashed :
    KeepsRefs M P (replayStashed env) :=
  .drain (fun a _ h => ⟨⟨by simp, h.pending, h.waiters, h.sent⟩, h.stashed⟩)
    fun m hm => keepsRefs_receiveInitialized env hm

lemma keepsRefs_receiveWhileLoading (hm : m.Bears P) :
    KeepsRefs M P (receiveWhileLoading env m) := by
  have hloaded : ∀ entities, KeepsRefs M P (do
      applyRememberedEntities env entities
      replayStashed env) := fun entities =>
    .bind (keepsRefs_applyRememberedEntities env entities) fun _ => keepsRefs_replayStashed env
  unfold receiveWhileLoading
  split
  · exact hloaded _
  · exact hloaded _
  · split
    · exact hloaded _
    · exact keepsRefs_send trivial
  · refine .update fun a ws h => ⟨?_, h.pending, h.waiters, h.sent⟩
    exact forall_mem_append.mpr ⟨h.stashed, forall_mem_singleton.mpr hm⟩

/-- **The turn of a shard** answers and keeps only references that it was given. -/
theorem receive_keepsRefs (hm : m.Bears P) : KeepsRefs M P (receive env m) := by
  refine .read fun a => ?_
  split
  · exact keepsRefs_receiveWhileLoading env hm
  · exact keepsRefs_receiveInitialized env hm

end EntityShard

end Kairo.Sharding
