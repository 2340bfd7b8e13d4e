import Mathlib.Data.Nat.Basic

/-!
# A retried call

`retry retryable tries f` is a function under a retry decorator: attempt number
`k` is `f k`, the call is made again after an error that `retryable` accepts,
and `tries` bounds the attempts. What the decorator returns or raises is what
the last attempt returned or raised (`retry_eq_last`), and an attempt is made
exactly when all attempts before it failed with a retryable error and the bound
is not reached (`le_lastAttempt_iff`). `retryRun` is the same decorator around a
call that changes a state, and `retryRun_numbered` says that the two agree where
the state is the number of the next attempt.
-/

namespace Retry

variable {ε β : Type}

/-- The outcome asks for another attempt. -/
def retryableOutcome (retryable : ε → Bool) : Except ε β → Bool
  | .error e => retryable e
  | .ok _ => false

/-- The attempts from number `k` on, at most `left + 1` of them. -/
def retryFrom (retryable : ε → Bool) (f : Nat → Except ε β) : Nat → Nat → Except ε β
  | 0, k => f k
  | left + 1, k => if retryableOutcome retryable (f k) then retryFrom retryable f left (k + 1) else f k

/-- The number of the last attempt made, counted from `k`. -/
def lastFrom (retryable : ε → Bool) (f : Nat → Except ε β) : Nat → Nat → Nat
  | 0, k => k
  | left + 1, k => if retryableOutcome retryable (f k) then lastFrom retryable f left (k + 1) else k

/-- The decorated function. -/
def retry (retryable : ε → Bool) (tries : Nat) (f : Nat → Except ε β) : Except ε β :=
  retryFrom retryable f (tries - 1) 0

/-- The number of the last attempt that the decorated function makes. -/
def lastAttempt (retryable : ε → Bool) (tries : Nat) (f : Nat → Except ε β) : Nat :=
  lastFrom retryable f (tries - 1) 0

section Run

variable {σ : Type}

/-- At most `left + 1` calls, each in the state that the one before it left. -/
def retryRunFrom (retryable : ε → Bool) (call : σ → Except ε β × σ) : Nat → σ → Except ε β × σ
  | 0, s => call s
  | left + 1, s =>
      let (outcome, s') := call s
      if retryableOutcome retryable outcome then retryRunFrom retryable call left s'
      else (outcome, s')

/-- The decorated function, for a call that changes a state. -/
def retryRun (retryable : ε → Bool) (tries : Nat) (call : σ → Except ε β × σ) (s : σ) :
    Except ε β × σ :=
  retryRunFrom retryable call (tries - 1) s

end Run

variable {retryable : ε → Bool} {f : Nat → Except ε β}

theorem retryFrom_eq (left k : Nat) :
    retryFrom retryable f left k = f (lastFrom retryable f left k) := by
  induction left generalizing k with
  | zero => rfl
  | succ left ih =>
    simp only [retryFrom, lastFrom]
    split
    · exact ih (k + 1)
    · rfl

theorem lastFrom_le (left k : Nat) : lastFrom retryable f left k ≤ k + left := by
  induction left generalizing k with
  | zero => exact Nat.le_refl k
  | succ left ih =>
    simp only [lastFrom]
    split
    · have := ih (k + 1)
      omega
    · omega

theorem retryable_of_lt_lastFrom {left k j : Nat} (hk : k ≤ j)
    (hj : j < lastFrom retryable f left k) : retryableOutcome retryable (f j) = true := by
  induction left generalizing k with
  | zero => simp only [lastFrom] at hj; omega
  | succ left ih =>
    simp only [lastFrom] at hj
    split at hj
    · next h =>
      rcases Nat.eq_or_lt_of_le hk with rfl | hlt
      · exact h
      · exact ih hlt hj
    · omega

/-- The outcome of the call is the outcome of its last attempt. -/
theorem retry_eq_last (tries : Nat) :
    retry retryable tries f = f (lastAttempt retryable tries f) :=
  retryFrom_eq _ _

/-- Attempts are numbered from 0, so at most `tries` of them are made. -/
theorem lastAttempt_lt {tries : Nat} (h : 0 < tries) :
    lastAttempt retryable tries f < tries := by
  have hle : lastFrom retryable f (tries - 1) 0 ≤ 0 + (tries - 1) := lastFrom_le _ _
  unfold lastAttempt
  omega

theorem self_le_lastFrom (left k : Nat) : k ≤ lastFrom retryable f left k := by
  induction left generalizing k with
  | zero => exact Nat.le_refl k
  | succ left ih =>
    simp only [lastFrom]
    split
    · exact Nat.le_of_succ_le (ih (k + 1))
    · exact Nat.le_refl k

theorem le_lastFrom {left k j : Nat} (hk : k ≤ j) (hj : j ≤ k + left)
    (h : ∀ i, k ≤ i → i < j → retryableOutcome retryable (f i) = true) :
    j ≤ lastFrom retryable f left k := by
  induction left generalizing k with
  | zero => exact hj
  | succ left ih =>
    rcases Nat.eq_or_lt_of_le hk with rfl | hlt
    · exact self_le_lastFrom _ _
    · simp only [lastFrom, h k (Nat.le_refl k) hlt, if_true]
      exact ih hlt (by omega) fun i hi => h i (by omega)

/-- An attempt is made exactly when the bound allows it and all attempts before
it failed with a retryable error. -/
theorem le_lastAttempt_iff {tries j : Nat} (ht : 0 < tries) :
    j ≤ lastAttempt retryable tries f ↔
      j < tries ∧ ∀ i < j, retryableOutcome retryable (f i) = true := by
  constructor
  · intro hj
    refine ⟨Nat.lt_of_le_of_lt hj (lastAttempt_lt ht), fun i hi => ?_⟩
    exact retryable_of_lt_lastFrom (Nat.zero_le i) (Nat.lt_of_lt_of_le hi hj)
  · rintro ⟨hj, h⟩
    exact le_lastFrom (Nat.zero_le j) (by omega) fun i _ => h i

/-- Every attempt before the last one failed with a retryable error. -/
theorem retryable_of_lt_lastAttempt {tries j : Nat} (hj : j < lastAttempt retryable tries f) :
    retryableOutcome retryable (f j) = true :=
  retryable_of_lt_lastFrom (Nat.zero_le j) hj

theorem retryRunFrom_numbered (left k : Nat) :
    retryRunFrom retryable (fun k => (f k, k + 1)) left k =
      (retryFrom retryable f left k, lastFrom retryable f left k + 1) := by
  induction left generalizing k with
  | zero => rfl
  | succ left ih =>
    simp only [retryRunFrom, retryFrom, lastFrom]
    split
    · exact ih (k + 1)
    · rfl

/-- A call whose state is the number of the next attempt. -/
theorem retryRun_numbered (tries : Nat) :
    retryRun retryable tries (fun k => (f k, k + 1)) 0 =
      (retry retryable tries f, lastAttempt retryable tries f + 1) :=
  retryRunFrom_numbered _ _

end Retry
