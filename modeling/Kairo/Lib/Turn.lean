import Mathlib.Data.List.Basic

/-!
# Turns of an actor

A turn changes the state of an actor, sends, and ends normally or fails; what it has changed and sent
before a failure stays.  `Triple P t Q E` is the rule of pre- and postconditions for turns: started
where `P` holds, `t` ends where `Q` holds, or fails where `E` holds.  The conditions are about the state
and about the list of what has been sent so far.  `Keeps F I` is the case of one condition throughout,
with failures of one kind.
-/

namespace Kairo.Lib

/-- Turns over states `σ` that send values of `ω` and fail with values of `ε`. -/
abbrev Turn (σ ω ε : Type) := EStateM ε (σ × List ω)

namespace Turn

variable {σ ω ε α β : Type}

def state : Turn σ ω ε σ := fun s => .ok s.1 s

def update (f : σ → σ) : Turn σ ω ε Unit := fun s => .ok () (f s.1, s.2)

/-- Replaces the state and returns a value. -/
def updateGet (f : σ → σ × α) : Turn σ ω ε α := fun s => .ok (f s.1).2 ((f s.1).1, s.2)

def send (w : ω) : Turn σ ω ε Unit := fun s => .ok () (s.1, s.2 ++ [w])

def fail (e : ε) : Turn σ ω ε α := fun s => .error e s

/-- Fails unless a check passes. -/
def check (c : Bool) (e : ε) : Turn σ ω ε Unit := if c then pure () else fail e

/-! ## Pre- and postconditions -/

/-- What holds of the end of a turn. -/
def Post (Q : α → σ → List ω → Prop) (E : ε → σ → List ω → Prop) :
    EStateM.Result ε (σ × List ω) α → Prop
  | .ok a s => Q a s.1 s.2
  | .error e s => E e s.1 s.2

/-- **The rule of pre- and postconditions.** -/
def Triple (P : σ → List ω → Prop) (t : Turn σ ω ε α) (Q : α → σ → List ω → Prop)
    (E : ε → σ → List ω → Prop) : Prop :=
  ∀ s ws, P s ws → Post Q E (t (s, ws))

section Rules

variable {P P' : σ → List ω → Prop} {Q Q' : α → σ → List ω → Prop} {E E' : ε → σ → List ω → Prop}
  {t : Turn σ ω ε α} {R : β → σ → List ω → Prop} {e : ε}

namespace Triple

lemma bind {f : α → Turn σ ω ε β} (ht : Triple P t Q E) (hf : ∀ a, Triple (Q a) (f a) R E) :
    Triple P (t >>= f) R E := by
  intro s ws hP
  have h := ht s ws hP
  change Post R E (EStateM.bind t f (s, ws))
  unfold EStateM.bind
  cases hr : t (s, ws) with
  | ok a s' =>
    rw [hr] at h
    exact hf a s'.1 s'.2 h
  | error e s' =>
    rw [hr] at h
    exact h

lemma pure {a : α} (h : ∀ s ws, P s ws → Q a s ws) : Triple P (pure a) Q E :=
  fun s ws hP => h s ws hP

lemma read {f : σ → Turn σ ω ε β} (hf : ∀ s, Triple P (f s) R E) :
    Triple P (Turn.state >>= f) R E := fun s ws hP => hf s s ws hP

/-- The state that was read is the one in which the turn goes on. -/
lemma readEq {f : σ → Turn σ ω ε β} (hf : ∀ s, Triple (fun s' ws => s' = s ∧ P s' ws) (f s) R E) :
    Triple P (Turn.state >>= f) R E := fun s ws hP => hf s s ws ⟨rfl, hP⟩

lemma update {f : σ → σ} {Q : Unit → σ → List ω → Prop} (h : ∀ s ws, P s ws → Q () (f s) ws) :
    Triple P (update f) Q E := fun s ws hP => h s ws hP

lemma updateGet {f : σ → σ × α} (h : ∀ s ws, P s ws → Q (f s).2 (f s).1 ws) :
    Triple P (updateGet f) Q E := fun s ws hP => h s ws hP

lemma send {w : ω} {Q : Unit → σ → List ω → Prop} (h : ∀ s ws, P s ws → Q () s (ws ++ [w])) :
    Triple P (send w) Q E := fun s ws hP => h s ws hP

lemma fail (h : ∀ s ws, P s ws → E e s ws) : Triple P (fail e) Q E :=
  fun s ws hP => h s ws hP

lemma weaken (h : Triple P t Q E) (hP : ∀ s ws, P' s ws → P s ws)
    (hQ : ∀ a s ws, Q a s ws → Q' a s ws) (hE : ∀ e s ws, E e s ws → E' e s ws) :
    Triple P' t Q' E' := by
  intro s ws hs
  have := h s ws (hP s ws hs)
  cases hr : t (s, ws) with
  | ok a s' => rw [hr] at this; exact hQ a s'.1 s'.2 this
  | error e s' => rw [hr] at this; exact hE e s'.1 s'.2 this

lemma pre (h : Triple P t Q E) (hP : ∀ s ws, P' s ws → P s ws) : Triple P' t Q E :=
  h.weaken hP (fun _ _ _ h => h) fun _ _ _ h => h

lemma check {c : Bool} (h : ∀ s ws, P s ws → E e s ws) : Triple P (check c e) (fun _ => P) E := by
  unfold Turn.check
  split
  · exact pure fun _ _ hP => hP
  · exact fail h

/-- A precondition that implies a fact about values. -/
lemma assume {p : Prop} (hp : ∀ s ws, P s ws → p) (h : p → Triple P t Q E) : Triple P t Q E :=
  fun s ws hP => h (hp s ws hP) s ws hP

end Triple

end Rules

/-! ## Invariants -/

/-- The turn keeps `I`, whether it ends normally or fails, and its failures are those of `F`. -/
def Keeps (F : ε → Prop) (I : σ → List ω → Prop) (t : Turn σ ω ε α) : Prop :=
  Triple I t (fun _ => I) (fun e s ws => F e ∧ I s ws)

abbrev AnyFailure : ε → Prop := fun _ => True

namespace Keeps

variable {F : ε → Prop} {I : σ → List ω → Prop} {t : Turn σ ω ε α} {f : β → Turn σ ω ε PUnit}

lemma pure (a : α) : Keeps F I (pure a : Turn σ ω ε α) := fun _ _ h => h

lemma fail (he : F e) : Keeps F I (fail e : Turn σ ω ε α) := fun _ _ h => ⟨he, h⟩

lemma read {f : σ → Turn σ ω ε α} (hf : ∀ s, Keeps F I (f s)) : Keeps F I (Turn.state >>= f) :=
  Triple.read hf

lemma check {c : Bool} (he : F e) : Keeps F I (check c e : Turn σ ω ε Unit) :=
  Triple.check fun _ _ h => ⟨he, h⟩

lemma update {f : σ → σ} (h : ∀ s ws, I s ws → I (f s) ws) :
    Keeps F I (update f : Turn σ ω ε Unit) := h

lemma updateGet {f : σ → σ × α} (h : ∀ s ws, I s ws → I (f s).1 ws) :
    Keeps F I (updateGet f : Turn σ ω ε α) := h

lemma send {w : ω} (h : ∀ s ws, I s ws → I s (ws ++ [w])) :
    Keeps F I (send w : Turn σ ω ε Unit) := h

lemma bind {f : α → Turn σ ω ε β} (ht : Keeps F I t) (hf : ∀ a, Keeps F I (f a)) :
    Keeps F I (t >>= f) := Triple.bind ht hf

lemma forM {xs : List β} (h : ∀ x ∈ xs, Keeps F I (f x)) : Keeps F I (xs.forM f) := by
  induction xs with
  | nil => exact pure PUnit.unit
  | cons x xs ih =>
    exact bind (h x List.mem_cons_self) fun _ => ih fun y hy => h y (List.mem_cons_of_mem _ hy)

/-- Takes a list out of the state and goes through it. -/
lemma drain {g : σ → σ × List β} {p : β → Prop}
    (hg : ∀ s ws, I s ws → I (g s).1 ws ∧ ∀ x ∈ (g s).2, p x) (hf : ∀ x, p x → Keeps F I (f x)) :
    Keeps F I (Turn.updateGet g >>= fun xs => xs.forM f) := by
  intro s ws hs
  obtain ⟨h, hp⟩ := hg s ws hs
  exact forM (fun x hx => hf x (hp x hx)) _ ws h

end Keeps

end Turn

end Kairo.Lib
