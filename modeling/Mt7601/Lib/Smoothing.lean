/-
# Averages in fixed point

An average that moves towards each new value by the `w`-th part of the difference, kept as `w` times
itself: `next`. Division rounds down, and what it leaves over stays in the scaled average, so that
the average never leaves the range of the values (`within_next`, `Within.mean`).
-/
import Mathlib.Tactic.Linarith
import Mathlib.Algebra.Order.Ring.Int

namespace Smoothing

/-- The scaled average with one more value. -/
def next (w x v : Int) : Int := x - x / w + v

/-- The average lies between two bounds: what division leaves over counts for the upper one. -/
def Within (w lo hi x : Int) : Prop := w * lo ≤ x ∧ x ≤ w * hi + (w - 1)

section

variable {w lo hi x v : Int}

theorem Within.mono {lo' hi' : Int} (hw : 0 < w) (h : Within w lo hi x) (hlo : lo' ≤ lo)
    (hhi : hi ≤ hi') : Within w lo' hi' x := by
  obtain ⟨hmin, hmax⟩ := h
  have hleft : w * lo' ≤ w * lo := Int.mul_le_mul_of_nonneg_left hlo hw.le
  have hright : w * hi ≤ w * hi' := Int.mul_le_mul_of_nonneg_left hhi hw.le
  exact ⟨hleft.trans hmin, by linarith⟩

variable (hw : 0 < w)

include hw

/-- A first value. -/
theorem within_first (hlo : lo ≤ v) (hhi : v ≤ hi) : Within w lo hi (w * v) := by
  have hleft : w * lo ≤ w * v := Int.mul_le_mul_of_nonneg_left hlo hw.le
  have hright : w * v ≤ w * hi := Int.mul_le_mul_of_nonneg_left hhi hw.le
  exact ⟨hleft, by linarith⟩

/-- The average itself. -/
theorem Within.mean (h : Within w lo hi x) : lo ≤ x / w ∧ x / w ≤ hi := by
  obtain ⟨hmin, hmax⟩ := h
  constructor
  · rw [Int.le_ediv_iff_mul_le hw, Int.mul_comm]
    exact hmin
  · rw [← Int.lt_add_one_iff, Int.ediv_lt_iff_lt_mul hw]
    linarith [Int.mul_comm w hi, Int.add_mul hi 1 w]

/-- **One more value in the range keeps the average in it.** -/
theorem within_next (h : Within w lo hi x) (hlo : lo ≤ v) (hhi : v ≤ hi) :
    Within w lo hi (next w x v) := by
  obtain ⟨hmin, hmax⟩ := h
  have hmean := Within.mean hw ⟨hmin, hmax⟩
  have hdiv : w * (x / w) + x % w = x := Int.mul_ediv_add_emod x w
  have hpos : 0 ≤ x % w := Int.emod_nonneg x hw.ne'
  have hlt : x % w < w := Int.emod_lt_of_pos x hw
  have hleft : (w - 1) * lo ≤ (w - 1) * (x / w) :=
    Int.mul_le_mul_of_nonneg_left hmean.1 (by omega)
  have hright : (w - 1) * (x / w) ≤ (w - 1) * hi :=
    Int.mul_le_mul_of_nonneg_left hmean.2 (by omega)
  unfold next
  constructor <;> linarith

end

end Smoothing
