/-
# Numbers in limbs

A number is written with digits in base `β`, the lowest first (`Nat.ofDigits`). Two operations work
from the lowest digit on: an addition, which is exact up to the digits that are kept (`ofDigits_add`),
and a subtraction, which is right so far exactly if it goes on with the borrow that the low digits
leave (`sub_cons_iff`, `borrows_cons`).
-/
import Mathlib.Data.Nat.Digits.Lemmas
import Mathlib.Data.Int.ModEq
import Mathlib.Tactic.Ring

namespace Limbs

variable {β : Nat}

/-! ## 1. Addition -/

/-- The `n` low digits of a sum; digits that are missing are zero. -/
def add (β : Nat) : Nat → List Nat → List Nat → Nat → List Nat
  | 0, _, _, _ => []
  | n + 1, as, bs, carry =>
    let sum := as.headD 0 + bs.headD 0 + carry
    sum % β :: add β n as.tail bs.tail (sum / β)

theorem ofDigits_head_tail (ds : List Nat) :
    Nat.ofDigits β ds = ds.headD 0 + β * Nat.ofDigits β ds.tail := by
  cases ds with
  | nil => rfl
  | cons d ds => exact Nat.ofDigits_cons

/-- **The digits are those of the sum.** -/
theorem ofDigits_add (n : Nat) (as bs : List Nat) (carry : Nat) :
    Nat.ofDigits β (add β n as bs carry) =
      (Nat.ofDigits β as + Nat.ofDigits β bs + carry) % β ^ n := by
  induction n generalizing as bs carry with
  | zero => rw [add, Nat.ofDigits_nil, Nat.pow_zero, Nat.mod_one]
  | succ n ih =>
    have hsum : Nat.ofDigits β as + Nat.ofDigits β bs + carry =
        as.headD 0 + bs.headD 0 + carry +
          β * (Nat.ofDigits β as.tail + Nat.ofDigits β bs.tail) := by
      rw [ofDigits_head_tail as, ofDigits_head_tail bs]
      ring
    rcases Nat.eq_zero_or_pos β with rfl | hpos
    · rw [add, Nat.ofDigits_cons, hsum]
      simp
    · rw [add, Nat.ofDigits_cons, ih, hsum, Nat.pow_succ', Nat.mod_mul,
        Nat.add_mul_mod_self_left, Nat.add_mul_div_left _ _ hpos]
      ring_nf

/-! ## 2. Subtraction -/

/-- A borrow is pending in front of digit `i`: the digits below it are a smaller number. -/
def Borrows (β : Nat) (as bs : List Nat) (borrow i : Nat) : Prop :=
  Nat.ofDigits β (as.take i) < Nat.ofDigits β (bs.take i) + borrow

theorem borrows_zero {as bs : List Nat} {borrow : Nat} :
    Borrows β as bs borrow 0 ↔ 0 < borrow := by
  simp [Borrows]

/-- A borrow behind the first digit is one of the rest. -/
theorem borrows_cons {a : Nat} {as bs : List Nat} {borrow i : Nat} (ha : a < β)
    (hb : bs.headD 0 < β) (hborrow : borrow ≤ 1) :
    Borrows β (a :: as) bs borrow (i + 1) ↔
      Borrows β as bs.tail (if a < bs.headD 0 + borrow then 1 else 0) i := by
  have hbs : Nat.ofDigits β (bs.take (i + 1)) =
      bs.headD 0 + β * Nat.ofDigits β (bs.tail.take i) := by
    cases bs with
    | nil => simp
    | cons b bs => exact Nat.ofDigits_cons
  rw [Borrows, Borrows, hbs, List.take_succ_cons, Nat.ofDigits_cons]
  generalize Nat.ofDigits β (as.take i) = x
  generalize Nat.ofDigits β (bs.tail.take i) = y
  have hpos : 0 < β := Nat.zero_lt_of_lt ha
  rcases Nat.lt_trichotomy x y with hlt | rfl | hgt
  · have hmul : β * (x + 1) ≤ β * y := Nat.mul_le_mul_left β hlt
    rw [Nat.mul_add, Nat.mul_one] at hmul
    split_ifs <;> omega
  · split_ifs <;> omega
  · have hmul : β * (y + 1) ≤ β * x := Nat.mul_le_mul_left β hgt
    rw [Nat.mul_add, Nat.mul_one] at hmul
    split_ifs <;> omega

/-- Equal numbers leave no borrow. -/
theorem not_borrows_of_eq {as bs : List Nat} (hpos : 0 < β) (has : ∀ a ∈ as, a < β)
    (hbs : ∀ b ∈ bs, b < β) (heq : Nat.ofDigits β as = Nat.ofDigits β bs) (i : Nat) :
    ¬ Borrows β as bs 0 i := by
  rw [Borrows, Nat.add_zero, ← Nat.ofDigits_mod_pow_eq_ofDigits_take i hpos as has,
    ← Nat.ofDigits_mod_pow_eq_ofDigits_take i hpos bs hbs, heq]
  exact Nat.lt_irrefl _

/-- **A first digit is right if what follows goes on with the borrow that it leaves.** -/
theorem sub_cons_iff {r a b borrow next R A B M : Int} (hβ : 0 < β)
    (hr : r = a - b - borrow + β * next) :
    r + β * R ≡ (a + β * A) - (b + β * B) - borrow [ZMOD β * M] ↔ R ≡ A - B - next [ZMOD M] := by
  have hne : (β : Int) ≠ 0 := by omega
  have heq : (a + β * A) - (b + β * B) - borrow - (r + β * R) = β * (A - B - next - R) := by
    rw [hr]
    ring
  rw [Int.modEq_iff_dvd, Int.modEq_iff_dvd, heq]
  exact Int.mul_dvd_mul_iff_left hne

/-- What is right modulo all digits is right in the first. -/
theorem modEq_head {x y X Y M : Int} (h : x + β * X ≡ y + β * Y [ZMOD β * M]) :
    x ≡ y [ZMOD β] := by
  have hmod := h.of_mul_right M
  rw [Int.modEq_iff_dvd] at hmod ⊢
  have heq : y - x = y + β * Y - (x + β * X) + β * (X - Y) := by ring
  rw [heq]
  exact Int.dvd_add hmod (Int.dvd_mul_right _ _)

end Limbs
