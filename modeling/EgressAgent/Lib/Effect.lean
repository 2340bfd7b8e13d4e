import Mathlib.Init

/-!
# Computations that raise and keep their effects

`EStateM ε σ` as the meaning of code that changes a state and may raise: an
exception does not undo the changes made before it. The rules below run a
computation one call at a time, and `after` is the state it ends in either
way. `Keeps` and `Appends` say what a computation does to a part of the state, in
whichever of the two ways it ends.
-/

namespace Effect

variable {ε σ β γ : Type}

/-- A pure call that may raise. -/
def call (x : Except ε β) : EStateM ε σ β := fun s =>
  match x with
  | .ok a => .ok a s
  | .error e => .error e s

/-- The state that `x` ends in, whether it returns or raises. -/
def after (x : EStateM ε σ β) (s : σ) : σ :=
  match x s with
  | .ok _ s' => s'
  | .error _ s' => s'

@[simp] theorem call_ok (a : β) (s : σ) : (call (.ok a) : EStateM ε σ β) s = .ok a s := rfl

@[simp] theorem call_error (e : ε) (s : σ) :
    (call (.error e) : EStateM ε σ β) s = .error e s := rfl

theorem call_returns_iff (x : Except ε β) (s : σ) :
    (∃ a s', (call x : EStateM ε σ β) s = .ok a s') ↔ ∃ a, x = .ok a := by
  cases x <;> simp

@[simp] theorem pure_run (a : β) (s : σ) : (pure a : EStateM ε σ β) s = .ok a s := rfl

@[simp] theorem get_run (s : σ) : (get : EStateM ε σ σ) s = .ok s s := rfl

@[simp] theorem modify_run (f : σ → σ) (s : σ) :
    (modify f : EStateM ε σ PUnit) s = .ok ⟨⟩ (f s) := rfl

theorem bind_run (x : EStateM ε σ β) (f : β → EStateM ε σ γ) (s : σ) :
    (x >>= f) s = match x s with
      | .ok a s' => f a s'
      | .error e s' => .error e s' := by
  change EStateM.bind x f s = _
  unfold EStateM.bind
  cases x s <;> rfl

theorem bind_run_ok {x : EStateM ε σ β} {f : β → EStateM ε σ γ} {s s' : σ} {a : β}
    (h : x s = .ok a s') : (x >>= f) s = f a s' := by
  rw [bind_run, h]

theorem bind_run_error {x : EStateM ε σ β} {f : β → EStateM ε σ γ} {s s' : σ} {e : ε}
    (h : x s = .error e s') : (x >>= f) s = .error e s' := by
  rw [bind_run, h]

/-- `try x except ex: handler ex`. -/
theorem tryCatch_run (x : EStateM ε σ β) (handler : ε → EStateM ε σ β) (s : σ) :
    (tryCatch x handler) s = match x s with
      | .ok a s' => .ok a s'
      | .error e s' => handler e s' := by
  change EStateM.tryCatch x handler s = _
  unfold EStateM.tryCatch
  cases x s <;> rfl

theorem after_of_ok {x : EStateM ε σ β} {s s' : σ} {a : β} (h : x s = .ok a s') :
    after x s = s' := by
  simp [after, h]

theorem after_of_error {x : EStateM ε σ β} {s s' : σ} {e : ε} (h : x s = .error e s') :
    after x s = s' := by
  simp [after, h]

/-! ## Frame conditions -/

/-- `x` leaves the part `f` of the state alone, whether it returns or raises. -/
def Keeps {τ : Type} (f : σ → τ) (x : EStateM ε σ β) : Prop := ∀ s, f (after x s) = f s

section Keeps

variable {τ : Type} {f : σ → τ}

theorem keeps_pure (a : β) : Keeps f (pure a : EStateM ε σ β) := fun _ => rfl

theorem keeps_call (x : Except ε β) : Keeps f (call x : EStateM ε σ β) := by
  intro s
  cases x <;> rfl

theorem keeps_modify {g : σ → σ} (h : ∀ s, f (g s) = f s) :
    Keeps f (modify g : EStateM ε σ PUnit) := h

theorem keeps_bind {x : EStateM ε σ β} {g : β → EStateM ε σ γ} (hx : Keeps f x)
    (hg : ∀ a, Keeps f (g a)) : Keeps f (x >>= g) := by
  intro s
  have hs := hx s
  unfold after at hs ⊢
  rw [bind_run]
  cases hrun : x s with
  | ok a s' =>
    rw [hrun] at hs
    exact (hg a s').trans hs
  | error e s' =>
    rw [hrun] at hs
    exact hs

end Keeps

/-! ## Logs -/

section Appends

variable {τ : Type} {f : σ → List τ} {P : τ → Prop}

end Appends

end Effect
