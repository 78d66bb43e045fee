import Kairo.Lib.FinMap
import Mathlib.Data.Finset.Max

/-!
# Remote associations

The life cycle of an association with a remote actor system and the registry that indexes
associations by address and by the incarnation (UID) learned in the handshake.  Diagnostics observers
are left out.
-/

namespace Kairo.Remote

open Kairo.Lib List FinMap Option

/-- The errors of the modelled functions; `A` is the type of association addresses. -/
inductive RemoteError (A : Type*)
  | outbound (reason : String)
  | outboundLaneQueueFull (lane : String) (capacity : ℕ)
  | reliableSystemBufferFull (capacity : ℕ)
  | invalidReliableSystemDelivery (reason : String)
  | inbound (reason : String)
  | associationClosed (remote : A) (reason : String)
  | associationQuarantined (remote : A) (reason : String)
  | associationUnavailable (remote : A)
  | associationUidCollision (uid : ℕ) (existing attempted : A)
  deriving DecidableEq

def RemoteError.message {A : Type*} [ToString A] : RemoteError A → String
  | .outbound reason => s!"remote outbound delivery failed: {reason}"
  | .outboundLaneQueueFull lane capacity =>
    s!"remote {lane} lane queue is full at capacity {capacity}"
  | .reliableSystemBufferFull capacity =>
    s!"reliable system delivery buffer is full at capacity {capacity}"
  | .invalidReliableSystemDelivery reason =>
    s!"invalid reliable system delivery transition: {reason}"
  | .inbound reason => s!"remote inbound delivery failed: {reason}"
  | .associationClosed remote reason => s!"remote association with `{remote}` is closed: {reason}"
  | .associationQuarantined remote reason =>
    s!"remote association with `{remote}` is quarantined: {reason}"
  | .associationUnavailable remote => s!"no remote association route for `{remote}`"
  | .associationUidCollision uid existing attempted =>
    s!"remote association UID collision for `{uid}`: existing `{existing}`, attempted `{attempted}`"

inductive AssociationState
  | idle
  | handshaking
  | active (remoteUid : Option ℕ)
  | quarantined (remoteUid : Option ℕ) (reason : String)
  | closed (reason : String)
  deriving DecidableEq

namespace AssociationState

variable (s : AssociationState)

/-- Terminal states are never reopened. -/
def activate (remoteUid : Option ℕ) : AssociationState :=
  match s with
  | .idle | .handshaking | .active _ => .active remoteUid
  | .quarantined .. | .closed _ => s

/-- Quarantine is stronger than a transport close. -/
def close (reason : String) : AssociationState :=
  match s with
  | .quarantined .. | .closed _ => s
  | _ => .closed reason

def ensureSendAllowed {A : Type*} (s : AssociationState) (remote : A) : Except (RemoteError A) Unit :=
  match s with
  | .idle | .handshaking | .active _ => .ok ()
  | .quarantined _ reason => .error (.associationQuarantined remote reason)
  | .closed reason => .error (.associationClosed remote reason)

/-- The active or quarantined UID. -/
def associationUid : AssociationState → Option ℕ
  | .active remoteUid | .quarantined remoteUid _ => remoteUid
  | .idle | .handshaking | .closed _ => none

lemma associationUid_activate {A : Type*} {s : AssociationState} {remote : A}
    (h : s.ensureSendAllowed remote = .ok ()) (remoteUid : Option ℕ) :
    (s.activate remoteUid).associationUid = remoteUid := by
  cases s with
  | idle | handshaking | active _ => rfl
  | quarantined _ _ | closed _ => cases h

end AssociationState

structure RemoteAssociationRegistry (A : Type*) where
  byAddress : FinMap A AssociationState
  byUid : FinMap ℕ A

namespace RemoteAssociationRegistry

variable {A : Type*} [DecidableEq A] (r : RemoteAssociationRegistry A)

def new : RemoteAssociationRegistry A := ⟨∅, ∅⟩

/-- The association of an address, created in the handshaking state when there is none. -/
def association (address : A) : RemoteAssociationRegistry A :=
  if address ∈ r.byAddress then r
  else { r with byAddress := r.byAddress.insert address .handshaking }

/-- The first UID that is indexed for an address. -/
def previousUid (address : A) : Option ℕ :=
  (r.byUid.keys.filter fun uid => r.byUid.lookup uid = some address).min

/-- The association a handshake works on.  A terminal association is replaced when a UID is indexed
for its address, a quarantined one only by another UID. -/
def handshakeAssociation (address : A) (uid : ℕ) : AssociationState :=
  match r.byAddress.lookup address with
  | some (.closed reason) => if (r.previousUid address).isSome then .handshaking else .closed reason
  | some (.quarantined remoteUid reason) =>
    if (r.previousUid address).any (· ≠ uid) then .handshaking else .quarantined remoteUid reason
  | some association => association
  | none => .handshaking

/-- A UID owned by another address is rejected. -/
def completeHandshake (address : A) (uid : ℕ) :
    Except (RemoteError A) (RemoteAssociationRegistry A) :=
  match r.byUid.lookup uid with
  | some existing =>
    if existing ≠ address then .error (.associationUidCollision uid existing address)
    else finish
  | none => finish
where
  finish : Except (RemoteError A) (RemoteAssociationRegistry A) :=
    let association := r.handshakeAssociation address uid
    match association.ensureSendAllowed address with
    | .error e => .error e
    | .ok () => .ok {
        byAddress := r.byAddress.insert address (association.activate (some uid))
        byUid := Finmap.insert uid address
          (r.byUid.retain fun u => u = uid ∨ r.byUid.lookup u ≠ some address) }

def uidForAddress (address : A) : Option ℕ :=
  (r.byAddress.lookup address).bind AssociationState.associationUid

/-- Changes the association of an address, if there is one. -/
def modify (address : A) (f : AssociationState → AssociationState) : RemoteAssociationRegistry A :=
  match r.byAddress.lookup address with
  | some association => { r with byAddress := r.byAddress.insert address (f association) }
  | none => r

/-- Quarantines an association only when its UID is the expected one. -/
def quarantineIfUid (address : A) (expectedUid : ℕ) (reason : String) :
    RemoteAssociationRegistry A × Bool :=
  if r.uidForAddress address = some expectedUid then
    (r.modify address fun _ => .quarantined (some expectedUid) reason, true)
  else (r, false)

/-! ## Changes that give no UID -/

variable {r} {address address' : A} {uid : ℕ} {r' : RemoteAssociationRegistry A} {reason : String}

def Quarantined (r : RemoteAssociationRegistry A) (address : A) (uid : ℕ) : Prop :=
  ∃ reason, r.byAddress.lookup address = some (.quarantined (some uid) reason)

/-- No association gets another UID or leaves quarantine. -/
structure Quiet (r r' : RemoteAssociationRegistry A) : Prop where
  byUid : r'.byUid = r.byUid
  uid : ∀ {a u}, r'.uidForAddress a = some u → r.uidForAddress a = some u
  quarantined : ∀ {a u}, r.Quarantined a u → r'.Quarantined a u

lemma quiet_refl : Quiet r r := ⟨rfl, id, id⟩

lemma quiet_insert {s : AssociationState}
    (hs : ∀ u, s.associationUid = some u → r.uidForAddress address = some u)
    (hq : ∀ u, r.Quarantined address u → ∃ reason, s = .quarantined (some u) reason) :
    Quiet r { r with byAddress := r.byAddress.insert address s } := by
  refine ⟨rfl, fun {a u} hu => ?_, fun {a u} hqa => ?_⟩
  · rw [uidForAddress, lookup_insert] at hu
    split_ifs at hu with ha
    · exact ha ▸ hs u hu
    · exact hu
  · by_cases ha : a = address
    · subst ha
      obtain ⟨reason, rfl⟩ := hq u hqa
      exact ⟨reason, Finmap.lookup_insert _⟩
    · obtain ⟨reason, hqa⟩ := hqa
      exact ⟨reason, by rw [lookup_insert, if_neg ha, hqa]⟩

lemma quiet_association : Quiet r (r.association address) := by
  unfold association
  split_ifs with hm
  · exact quiet_refl
  · refine quiet_insert nofun fun u hq => absurd (mem_iff_isSome.mpr ?_) hm
    obtain ⟨reason, hq⟩ := hq
    rw [hq]
    rfl

lemma quiet_modify {f : AssociationState → AssociationState}
    (hf : ∀ s, r.byAddress.lookup address = some s → ∀ u,
      ((f s).associationUid = some u → s.associationUid = some u) ∧
      ∀ reason, s = .quarantined (some u) reason → ∃ reason, f s = .quarantined (some u) reason) :
    Quiet r (r.modify address f) := by
  unfold modify
  split
  · rename_i s hs
    refine quiet_insert (fun u hu => ?_) fun u ⟨reason, hq⟩ => ?_
    · rw [uidForAddress, hs]
      exact (hf s hs u).1 hu
    · exact (hf s hs u).2 reason (some.inj (hs.symm.trans hq))
  · exact quiet_refl

lemma quiet_close : Quiet r (r.modify address (·.close reason)) := by
  refine quiet_modify fun s hs u => ⟨fun hu => ?_, fun reason' hq => ⟨reason', by rw [hq]; rfl⟩⟩
  cases s with
  | quarantined _ _ => exact hu
  | _ => cases hu

lemma quiet_quarantineIfUid {expected : ℕ} :
    Quiet r (r.quarantineIfUid address expected reason).1 := by
  unfold quarantineIfUid
  split_ifs with hv
  · refine quiet_modify fun s hs u => ⟨fun hu => ?_, fun reason' hq => ⟨reason, ?_⟩⟩
    · rw [uidForAddress, hs] at hv
      exact hv.trans hu
    · rw [uidForAddress, hs, hq] at hv
      rw [← hv]
      rfl
  · exact quiet_refl

/-! ## Handshakes -/

/-- A handshake that succeeds owns its UID and works on an association that may send. -/
lemma completeHandshake_ok (h : r.completeHandshake address uid = .ok r') :
    (∀ a, r.byUid.lookup uid = some a → a = address) ∧
      (r.handshakeAssociation address uid).ensureSendAllowed address = .ok () ∧
      (∀ u, r'.byUid.lookup u = if u = uid then some address else
        if r.byUid.lookup u = some address then none else r.byUid.lookup u) ∧
      r'.byAddress = r.byAddress.insert address
        ((r.handshakeAssociation address uid).activate (some uid)) := by
  have hfin : completeHandshake.finish r address uid = .ok r' ∧
      ∀ a, r.byUid.lookup uid = some a → a = address := by
    unfold completeHandshake at h
    split at h
    · rename_i existing he
      split_ifs at h with hne
      exact ⟨h, fun a ha => some.inj (ha.symm.trans he) ▸ not_not.mp hne⟩
    · rename_i he
      exact ⟨h, fun a ha => by cases he.symm.trans ha⟩
  obtain ⟨hfin, howner⟩ := hfin
  unfold completeHandshake.finish at hfin
  dsimp only at hfin
  split at hfin
  · cases hfin
  · rename_i hsend
    cases hfin
    refine ⟨howner, hsend, fun u => ?_, rfl⟩
    rw [lookup_insert, lookup_retain]
    split_ifs <;> simp_all

lemma uidForAddress_completeHandshake (hr : r.completeHandshake address uid = .ok r') :
    r'.uidForAddress address' =
      if address' = address then some uid else r.uidForAddress address' := by
  obtain ⟨-, hsend, -, hby⟩ := completeHandshake_ok hr
  rw [uidForAddress, hby, lookup_insert]
  split_ifs
  · exact AssociationState.associationUid_activate hsend _
  · rfl

/-! ## Calls on a registry -/

inductive RegistryCall (A : Type*)
  | association (address : A)
  | completeHandshake (address : A) (uid : ℕ)
  | quarantineIfUid (address : A) (expectedUid : ℕ) (reason : String)
  | close (address : A) (reason : String)

/-- The registry after a call.  A handshake stores the association it works on before it checks that
it may send; a UID of another address is rejected before that.  An association that was replaced is
terminal, so that closing it changes nothing. -/
def call (r : RemoteAssociationRegistry A) : RegistryCall A → RemoteAssociationRegistry A
  | .association address => r.association address
  | .completeHandshake address uid =>
    match r.completeHandshake address uid with
    | .ok r' => r'
    | .error (.associationUidCollision ..) => r
    | .error _ =>
      { r with byAddress := r.byAddress.insert address (r.handshakeAssociation address uid) }
  | .quarantineIfUid address uid reason => (r.quarantineIfUid address uid reason).1
  | .close address reason => r.modify address (·.close reason)

def run (r : RemoteAssociationRegistry A) (calls : List (RegistryCall A)) :
    RemoteAssociationRegistry A := calls.foldl call r

/-- A rejected handshake leaves the registry as it was: only an association that is there is
terminal. -/
lemma call_rejected {e : RemoteError A} (h : r.completeHandshake address uid = .error e) :
    r.call (.completeHandshake address uid) = r := by
  rw [call, h]
  split
  · cases ‹_›
  · rfl
  · rename_i hne he
    cases he
    have hthere : r.byAddress.lookup address = some (r.handshakeAssociation address uid) := by
      unfold completeHandshake completeHandshake.finish at h
      unfold handshakeAssociation at h ⊢
      grind [AssociationState.ensureSendAllowed]
    have hsame : r.byAddress.insert address (r.handshakeAssociation address uid) = r.byAddress := by
      refine Finmap.ext_lookup fun a => ?_
      rw [lookup_insert]
      split_ifs with ha
      · rw [ha, hthere]
      · rfl
    rw [hsame]

lemma call_cases (c : RegistryCall A) : Quiet r (r.call c) ∨
    ∃ a u, c = .completeHandshake a u ∧ r.completeHandshake a u = .ok (r.call c) := by
  cases c with
  | association b => exact .inl quiet_association
  | completeHandshake b u =>
    cases hr : r.completeHandshake b u with
    | ok r' => exact .inr ⟨b, u, rfl, by rw [hr, call, hr]⟩
    | error e =>
      rw [call_rejected hr]
      exact .inl quiet_refl
  | quarantineIfUid b v reason => exact .inl quiet_quarantineIfUid
  | close b reason => exact .inl quiet_close

/-- Among the calls is a handshake of another incarnation that succeeds. -/
def Supplanted (r : RemoteAssociationRegistry A) (address : A) (uid : ℕ)
    (calls : List (RegistryCall A)) : Prop :=
  ∃ v ≠ uid, ∃ before after r', calls = before ++ .completeHandshake address v :: after ∧
    (r.run before).completeHandshake address v = .ok r'

/-- The index has one UID for each address, and the UIDs of all associations. -/
structure Identified (r : RemoteAssociationRegistry A) : Prop where
  single : ∀ {u v a}, r.byUid.lookup u = some a → r.byUid.lookup v = some a → u = v
  indexed : ∀ {a u}, r.uidForAddress a = some u → r.byUid.lookup u = some a

namespace Identified

variable {r r' : RemoteAssociationRegistry A} {a : A} {u : ℕ}

lemma handshaken (h : r.Identified) (hr : r.completeHandshake a uid = .ok r') : r'.Identified := by
  obtain ⟨howner, -, hby, -⟩ := completeHandshake_ok hr
  refine ⟨fun {u v b} hu hv => ?_, fun {b u} hu => ?_⟩
  · rw [hby] at hu hv
    split_ifs at hu hv with h1 h2 h3 h4
    · rw [h1, h2]
    · exact absurd (hv.trans hu.symm) h3
    · exact absurd (hu.trans hv.symm) ‹_›
    · exact h.single hu hv
  · rw [uidForAddress_completeHandshake hr] at hu
    rw [hby]
    split_ifs at hu with hb
    · rw [if_pos (some.inj hu).symm, hb]
    · have hold := h.indexed hu
      have hne : u ≠ uid := fun e => hb (howner b (e ▸ hold))
      rw [if_neg hne, hold, if_neg fun e => hb (some.inj e)]

/-- **One call** keeps the index. -/
theorem after (h : r.Identified) (c : RegistryCall A) : (r.call c).Identified := by
  rcases call_cases c with ⟨hby, huid, -⟩ | ⟨a, u, rfl, hr⟩
  · exact ⟨by rw [hby]; exact h.single, fun hu => by rw [hby]; exact h.indexed (huid hu)⟩
  · exact h.handshaken hr

lemma quarantined_rejected (h : r.Identified) (hq : r.Quarantined a u) :
    r.completeHandshake a u ≠ .ok r' := by
  intro hr
  obtain ⟨reason, hq⟩ := hq
  obtain ⟨-, hsend, -⟩ := completeHandshake_ok hr
  -- its UID is the one that is indexed, so its association is not replaced
  have hprev : (r.previousUid a).any (· ≠ u) = false := by
    cases hp : r.previousUid a with
    | none => rfl
    | some w =>
      have hw := (Finset.mem_filter.mp (Finset.mem_of_min hp)).2
      simpa using h.single (by simpa using hw) (h.indexed (by rw [uidForAddress, hq]; rfl))
  rw [handshakeAssociation, hq] at hsend
  dsimp only at hsend
  rw [hprev] at hsend
  cases hsend

/-- A run that makes a quarantined incarnation active has the handshake of another before. -/
lemma supplanted (h : r.Identified) {b : A} {calls : List (RegistryCall A)} (hq : r.Quarantined a u)
    (hb : (r.run calls).byAddress.lookup b = some (.active (some u))) : r.Supplanted a u calls := by
  induction calls generalizing r with
  | nil =>
    obtain ⟨reason, hq⟩ := hq
    have ha := h.indexed (a := a) (u := u) (by rw [uidForAddress, hq]; rfl)
    have hb' := h.indexed (a := b) (u := u) (by rw [uidForAddress]; exact hb ▸ rfl)
    obtain rfl := some.inj (ha.symm.trans hb')
    cases hq.symm.trans hb
  | cons c calls ih =>
    have hrest (hq' : (r.call c).Quarantined a u) : r.Supplanted a u (c :: calls) := by
      obtain ⟨v, hne, before, after, r', rfl, hok⟩ := ih (h.after c) hq' hb
      exact ⟨v, hne, c :: before, after, r', rfl, hok⟩
    rcases call_cases c with hc | ⟨b', v, rfl, hr⟩
    · exact hrest (hc.quarantined hq)
    · by_cases hb : a = b'
      · subst hb
        exact ⟨v, fun hv => h.quarantined_rejected hq (hv ▸ hr), [], calls, _, rfl, hr⟩
      · obtain ⟨reason, hq⟩ := hq
        refine hrest ⟨reason, ?_⟩
        rw [(completeHandshake_ok hr).2.2.2, lookup_insert, if_neg hb, hq]

end Identified

/-- **Identity of incarnations.**  After every sequence of calls: UIDs and addresses are indexed
one-to-one; the UID of an active association is indexed for its address; a quarantined incarnation
becomes active only after a handshake of another at its address; and a rejected handshake changes
nothing. -/
theorem registry_identity (calls : List (RegistryCall A)) :
    let r : RemoteAssociationRegistry A := new.run calls
    (∀ u v a b, r.byUid.lookup u = some a → r.byUid.lookup v = some b → (u = v ↔ a = b)) ∧
      (∀ a u, r.byAddress.lookup a = some (.active (some u)) → r.byUid.lookup u = some a) ∧
      (∀ a u more b, r.Quarantined a u →
        (r.run more).byAddress.lookup b = some (.active (some u)) → r.Supplanted a u more) ∧
      ∀ a u e, r.completeHandshake a u = .error e → r.call (.completeHandshake a u) = r := by
  intro r
  have h : r.Identified := by
    refine foldlRecOn calls call (motive := Identified) ?_ fun r h c _ => h.after c
    exact ⟨fun hu => (by cases hu), fun hu => (by cases hu)⟩
  refine ⟨fun u v a b hu hv => ⟨fun he => ?_, fun he => ?_⟩, fun a u hs => ?_,
    fun _ _ _ _ hq hb => h.supplanted hq hb, fun a u e he => call_rejected he⟩
  · exact some.inj (hu.symm.trans (he ▸ hv))
  · exact h.single hu (he ▸ hv)
  · exact h.indexed (by rw [uidForAddress, hs]; rfl)

end RemoteAssociationRegistry

end Kairo.Remote
