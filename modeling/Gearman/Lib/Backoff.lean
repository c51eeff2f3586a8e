import Mathlib.Algebra.Ring.Nat
import Mathlib.Tactic.Common

/-!
# Exponential backoff

A delay that doubles with every failure in a row, up to a cap.
-/

namespace Backoff

variable {first cap : ℕ}

/-- The delay after `n` failures in a row. -/
def delay (first cap n : ℕ) : ℕ := min (first * 2 ^ n) cap

theorem delay_zero (h : first ≤ cap) : delay first cap 0 = first := by
  rw [delay, Nat.pow_zero, Nat.mul_one, Nat.min_eq_left h]

/-- Doubling below the cap is doubling of the delay capped before. -/
theorem delay_succ (first cap n : ℕ) :
    delay first cap (n + 1) = min (delay first cap n * 2) cap := by
  unfold delay
  rw [Nat.pow_succ, ← Nat.mul_assoc]
  omega

end Backoff
