/-
# Long division

The digits of a quotient from the highest one down. In front of a digit stands what the higher ones
have left of the dividend (`rest`); the digit is how often the divisor, moved there, goes into it
(`digit`), and what it leaves is the next rest (`rest_succ`).
-/
import Mathlib.Data.Nat.ModEq
import Mathlib.Tactic.Ring

namespace LongDivision

variable {β v w k : Nat}

/-- What is left of `v` for the digits below `k`. -/
def rest (β v w k : Nat) : Nat := v % (w * β ^ k)

/-- The digit at `k`. -/
def digit (β v w k : Nat) : Nat := rest β v w (k + 1) / (w * β ^ k)

theorem rest_zero : rest β v w 0 = v % w := by
  rw [rest, pow_zero, Nat.mul_one]

theorem rest_of_lt (h : v < w * β ^ k) : rest β v w k = v := Nat.mod_eq_of_lt h

theorem rest_lt (hw : 0 < w) (hβ : 0 < β) : rest β v w k < w * β ^ k :=
  Nat.mod_lt _ (Nat.mul_pos hw (Nat.pow_pos hβ))

theorem digit_lt (hw : 0 < w) (hβ : 0 < β) : digit β v w k < β := by
  refine Nat.div_lt_of_lt_mul ?_
  have hrest := rest_lt (v := v) (k := k + 1) hw hβ
  rwa [pow_succ, ← Nat.mul_assoc] at hrest

/-- **The digit, and what it leaves.** -/
theorem rest_succ : rest β v w (k + 1) = digit β v w k * (w * β ^ k) + rest β v w k := by
  have hdvd : w * β ^ k ∣ w * β ^ (k + 1) := Nat.mul_dvd_mul_left w (pow_dvd_pow β k.le_succ)
  have hmod : rest β v w (k + 1) % (w * β ^ k) = rest β v w k := Nat.mod_mod_of_dvd v hdvd
  rw [← hmod, digit, Nat.mul_comm, Nat.div_add_mod]

/-- It goes in so often, and not once more. -/
theorem digit_spec (hw : 0 < w) (hβ : 0 < β) :
    digit β v w k * (w * β ^ k) ≤ rest β v w (k + 1) ∧
      rest β v w (k + 1) < (digit β v w k + 1) * (w * β ^ k) := by
  have hrest := rest_lt (v := v) (k := k) hw hβ
  rw [rest_succ, Nat.add_mul, Nat.one_mul]
  omega

end LongDivision
