/-
# Montgomery reduction

A number `t` is divided by `β ^ n` modulo `P` by adding a multiple of `P` to it that makes its low
digit zero, and dropping that digit, `n` times over. The multiple is found from the low digit and a
number `q` with `q * P` one less than a multiple of `β`. What comes out is less than `2 * P` if the
number was less than `P * β ^ n` (`steps_lt`), and it is the only one that comes from a multiple of
`P` below `P * β ^ n` (`eq_steps`).
-/
import Mathlib.Data.Nat.ModEq
import Mathlib.Tactic.Ring

namespace Montgomery

variable {β P q : Nat}

/-- The multiple of `P` for the low digit of `t`. -/
def factor (β q t : Nat) : Nat := t % β * q % β

/-- One digit less. -/
def step (β P q t : Nat) : Nat := (t + factor β q t * P) / β

/-- `n` digits less. -/
def steps (β P q : Nat) : Nat → Nat → Nat
  | 0, t => t
  | n + 1, t => steps β P q n (step β P q t)

/-- **The low digit becomes zero.** -/
theorem mul_step (h : β ∣ q * P + 1) (t : Nat) :
    β * step β P q t = t + factor β q t * P := by
  refine Nat.mul_div_cancel' ?_
  have hfactor : factor β q t ≡ t * q [MOD β] :=
    (Nat.mod_modEq _ _).trans ((Nat.mod_modEq t β).mul_right q)
  have hsum : t + factor β q t * P ≡ t * (q * P + 1) [MOD β] := by
    have hmul := (hfactor.mul_right P).add_left t
    rwa [show t + t * q * P = t * (q * P + 1) by ring] at hmul
  exact Nat.modEq_zero_iff_dvd.mp (hsum.trans (Nat.modEq_zero_iff_dvd.mpr (h.mul_left t)))

theorem factor_lt (hβ : 0 < β) (t : Nat) : factor β q t < β := Nat.mod_lt _ hβ

/-- **A multiple of `P` makes all of them zero.** -/
theorem steps_spec (hβ : 0 < β) (h : β ∣ q * P + 1) (n t : Nat) :
    ∃ M < β ^ n, t + M * P = β ^ n * steps β P q n t := by
  induction n generalizing t with
  | zero => exact ⟨0, Nat.one_pos, by rw [steps]; ring⟩
  | succ n ih =>
    obtain ⟨M, hM, hsum⟩ := ih (step β P q t)
    refine ⟨factor β q t + β * M, ?_, ?_⟩
    · have hlow := factor_lt (q := q) hβ t
      have hhigh := Nat.mul_le_mul_left β hM
      rw [Nat.succ_eq_add_one, Nat.mul_add, Nat.mul_one] at hhigh
      rw [pow_succ']
      omega
    · rw [steps, pow_succ', Nat.mul_assoc, ← hsum, Nat.mul_add, mul_step h]
      ring

/-- **It comes out below `2 * P`.** -/
theorem steps_lt (hβ : 0 < β) (h : β ∣ q * P + 1) (hP : 0 < P) {n t : Nat} (ht : t < P * β ^ n) :
    steps β P q n t < 2 * P := by
  obtain ⟨M, hM, hsum⟩ := steps_spec hβ h n t
  have hmul : M * P < β ^ n * P := Nat.mul_lt_mul_of_pos_right hM hP
  refine Nat.lt_of_mul_lt_mul_left (a := β ^ n) ?_
  rw [← hsum, Nat.mul_comm P] at *
  rw [show β ^ n * (2 * P) = β ^ n * P + β ^ n * P by ring]
  omega

/-- It is coprime to the base. -/
theorem coprime (h : β ∣ q * P + 1) (n : Nat) : (β ^ n).Coprime P := by
  refine Nat.Coprime.pow_left n ?_
  have hdvd : β.gcd P ∣ 1 := by
    have hleft : β.gcd P ∣ q * P + 1 := (Nat.gcd_dvd_left _ _).trans h
    have hright : β.gcd P ∣ q * P := (Nat.gcd_dvd_right _ _).mul_left q
    exact (Nat.dvd_add_right hright).mp hleft
  exact Nat.dvd_one.mp hdvd

/-- **No other multiple does.** -/
theorem eq_steps (hβ : 0 < β) (h : β ∣ q * P + 1) {n t M T : Nat} (hM : M < β ^ n)
    (hsum : t + M * P = β ^ n * T) : T = steps β P q n t := by
  obtain ⟨M', hM', hsum'⟩ := steps_spec hβ h n t
  have hzero : ∀ {M T : Nat}, t + M * P = β ^ n * T → t + M * P ≡ 0 [MOD β ^ n] :=
    fun h => Nat.modEq_zero_iff_dvd.mpr ⟨_, h⟩
  have hmod : M * P ≡ M' * P [MOD β ^ n] :=
    ((hzero hsum).trans (hzero hsum').symm).add_left_cancel' t
  have heq : M = M' :=
    (Nat.ModEq.cancel_right_of_coprime (coprime h n) hmod).eq_of_lt_of_lt hM hM'
  rw [heq, hsum'] at hsum
  exact (Nat.eq_of_mul_eq_mul_left (Nat.pow_pos hβ) hsum).symm

/-- The number that comes out, times the power, is `t` modulo `P`. -/
theorem steps_modEq (hβ : 0 < β) (h : β ∣ q * P + 1) (n t : Nat) :
    β ^ n * steps β P q n t ≡ t [MOD P] := by
  obtain ⟨M, -, hsum⟩ := steps_spec hβ h n t
  rw [← hsum]
  exact (Nat.modEq_zero_iff_dvd.mpr (Dvd.intro_left M rfl)).add_left t

end Montgomery
