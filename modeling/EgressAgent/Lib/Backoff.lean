import Mathlib.Algebra.BigOperators.Group.Finset.Basic
import Mathlib.Algebra.Order.BigOperators.Group.Finset
import Mathlib.Algebra.Order.Field.Rat
import Mathlib.Tactic.Linarith

/-!
# Exponential backoff

The pauses of a retry decorator with a first delay, a factor and a bound on the
delay. `pause_eq` is their closed form and `pause_le` the bound. `total n` is how
long the first `n` pauses take, and `count_le` bounds the number of pauses that fit
into a time: all but those below the bound take the full bound.
-/

structure Backoff where
  delay : ℚ
  factor : ℚ
  maxDelay : ℚ
  delay_pos : 0 < delay
  one_le_factor : 1 ≤ factor
  delay_le : delay ≤ maxDelay

namespace Backoff

/-- The pause after the failure number `k`, counted from 0. -/
def pause (B : Backoff) : Nat → ℚ
  | 0 => B.delay
  | k + 1 => min (B.pause k * B.factor) B.maxDelay

variable (B : Backoff)

/-- The first `n` pauses together. -/
def total (n : Nat) : ℚ := ∑ k ∈ Finset.range n, B.pause k

theorem pause_le (k : Nat) : B.pause k ≤ B.maxDelay := by
  cases k with
  | zero => exact B.delay_le
  | succ k => exact min_le_right _ _

theorem pause_pos (k : Nat) : 0 < B.pause k := by
  have hfactor : 0 < B.factor := lt_of_lt_of_le one_pos B.one_le_factor
  induction k with
  | zero => exact B.delay_pos
  | succ k ih => exact lt_min (mul_pos ih hfactor) (lt_of_lt_of_le B.delay_pos B.delay_le)

/-- The pauses grow by the factor up to the bound. -/
theorem pause_eq (k : Nat) : B.pause k = min (B.delay * B.factor ^ k) B.maxDelay := by
  induction k with
  | zero => rw [pow_zero, mul_one, pause, min_eq_left B.delay_le]
  | succ k ih =>
    have hfactor : 0 ≤ B.factor := le_trans zero_le_one B.one_le_factor
    have hmax : 0 ≤ B.maxDelay := le_of_lt (lt_of_lt_of_le B.delay_pos B.delay_le)
    have hgrow : B.maxDelay ≤ B.maxDelay * B.factor := le_mul_of_one_le_right hmax B.one_le_factor
    rw [pause, ih, min_mul_of_nonneg _ _ hfactor, min_assoc, min_eq_right hgrow, pow_succ, mul_assoc]

theorem total_succ (n : Nat) : B.total (n + 1) = B.total n + B.pause n :=
  Finset.sum_range_succ _ n

theorem total_mono {n n' : Nat} (h : n ≤ n') : B.total n ≤ B.total n' :=
  Finset.sum_le_sum_of_subset_of_nonneg (Finset.range_mono h) fun k _ _ => le_of_lt (B.pause_pos k)

theorem total_nonneg (n : Nat) : 0 ≤ B.total n := B.total_mono (Nat.zero_le n)

/-- Once a pause has the full length, all later ones have it. -/
theorem pause_eq_maxDelay {n k : Nat} (hn : B.maxDelay ≤ B.delay * B.factor ^ n) (hk : n ≤ k) :
    B.pause k = B.maxDelay := by
  have hgrow : B.factor ^ n ≤ B.factor ^ k := pow_le_pow_right₀ B.one_le_factor hk
  rw [pause_eq]
  refine min_eq_right (le_trans hn ?_)
  exact mul_le_mul_of_nonneg_left hgrow (le_of_lt B.delay_pos)

/-- All pauses but the first `n` take the full delay. -/
theorem le_total {n : Nat} (hn : B.maxDelay ≤ B.delay * B.factor ^ n) (k : Nat) :
    ((k : ℚ) - n) * B.maxDelay ≤ B.total k := by
  have hmax : 0 < B.maxDelay := lt_of_lt_of_le B.delay_pos B.delay_le
  induction k with
  | zero =>
    have hn₀ : (0 : ℚ) ≤ n := Nat.cast_nonneg n
    have hle : ((0 : Nat) - n : ℚ) * B.maxDelay ≤ 0 := by
      rw [Nat.cast_zero, zero_sub]
      nlinarith
    exact le_trans hle (B.total_nonneg 0)
  | succ k ih =>
    rw [total_succ, Nat.cast_succ]
    rcases Nat.lt_or_ge k n with hlt | hge
    · have hcast : (k : ℚ) + 1 ≤ n := by exact_mod_cast hlt
      have htotal := B.total_nonneg k
      have hpause := B.pause_pos k
      nlinarith
    · rw [B.pause_eq_maxDelay hn hge]
      linarith

/-- How many pauses fit into a time. -/
theorem count_le {n k : Nat} {time : ℚ} (hn : B.maxDelay ≤ B.delay * B.factor ^ n)
    (htime : B.total k ≤ time) : (k : ℚ) ≤ n + time / B.maxDelay := by
  have hmax : 0 < B.maxDelay := lt_of_lt_of_le B.delay_pos B.delay_le
  have hle := le_trans (B.le_total hn k) htime
  have hdiv : (k : ℚ) - n ≤ time / B.maxDelay := (le_div_iff₀ hmax).mpr hle
  linarith

end Backoff
