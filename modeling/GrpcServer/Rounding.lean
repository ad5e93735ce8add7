import Mathlib.Algebra.Order.Ring.Rat
import Mathlib.Data.Rat.Cast.Order

/-- What is used of the rounding of results to `double`: it keeps the order, and it
is exact on the integers up to `2 ^ 53`. -/
structure Rounding where
  fl : ℚ → ℚ
  monotone : Monotone fl
  exact : ∀ n : ℕ, n ≤ 2 ^ 53 → fl n = n

namespace Rounding

variable (r : Rounding)

theorem fl_nonneg {x : ℚ} (h : 0 ≤ x) : 0 ≤ r.fl x := by
  have hzero := r.exact 0 (Nat.zero_le _)
  rw [Nat.cast_zero] at hzero
  exact hzero ▸ r.monotone h

theorem fl_le {x : ℚ} {n : ℕ} (hn : n ≤ 2 ^ 53) (h : x ≤ n) : r.fl x ≤ n := (r.exact n hn) ▸ r.monotone h

/-- Adding two counts is exact as long as the sum is small. -/
theorem fl_add {m n : ℕ} (h : m + n ≤ 2 ^ 53) : r.fl (m + r.fl n) = (m + n : ℕ) := by
  rw [r.exact n (by omega), ← Nat.cast_add, r.exact _ h]

/-- Arithmetic without rounding. -/
def identity : Rounding := { fl := id, monotone := monotone_id, exact := fun _ _ => rfl }

end Rounding
