/-
# Key wrap

The key wrap of RFC 3394 over any cipher of pairs. There are `n` half blocks and a register `a`; a
step puts `a` and one half block through the cipher and marks the new `a` with the number of the
step. Six passes over the half blocks wrap; the steps taken back unwrap.

The cipher and the mark are only asked to be invertible, so all of it is a permutation of the
registers (`recover_wrap`, `wrap_recover`).
-/
import Mathlib.Data.List.FinRange
import Mathlib.Logic.Equiv.Defs
import Mathlib.Logic.Function.Basic
import Mt7601.Lib.Cipher

namespace KeyWrap

/-- The cipher of pairs, and what a step number does to the register. -/
structure Scheme (β : Type) where
  cipher : β × β ≃ β × β
  mark : Nat → β ≃ β

/-- `A`, and `R[1]` to `R[n]`. -/
@[ext] structure Registers (β : Type) (n : Nat) where
  a : β
  r : Fin n → β

variable {β : Type} {n : Nat}

namespace Scheme

variable (S : Scheme β)

/-- The number of the step in pass `j` on half block `i`, which count from zero. -/
def count (n : Nat) (ji : Nat × Fin n) : Nat := n * ji.1 + ji.2 + 1

/-- A step of the wrapping. -/
def step (ji : Nat × Fin n) (s : Registers β n) : Registers β n :=
  let b := S.cipher (s.a, s.r ji.2)
  ⟨S.mark (count n ji) b.1, Function.update s.r ji.2 b.2⟩

/-- A step of the unwrapping. -/
def unstep (ji : Nat × Fin n) (s : Registers β n) : Registers β n :=
  let b := S.cipher.symm ((S.mark (count n ji)).symm s.a, s.r ji.2)
  ⟨b.1, Function.update s.r ji.2 b.2⟩

theorem unstep_step (ji : Nat × Fin n) (s : Registers β n) : S.unstep ji (S.step ji s) = s := by
  simp [unstep, step]

theorem step_unstep (ji : Nat × Fin n) (s : Registers β n) : S.step ji (S.unstep ji s) = s := by
  simp [unstep, step]

/-- The steps in order: six passes. -/
def steps (n : Nat) : List (Nat × Fin n) :=
  (List.range 6).flatMap fun j => (List.finRange n).map fun i => (j, i)

/-- Wrapping, with the value the register begins with. -/
def wrap (iv : β) (p : Fin n → β) : Registers β n :=
  Cipher.rounds S.step ⟨iv, p⟩ (steps n)

/-- The registers with the steps taken back. -/
def recover (c : Registers β n) : Registers β n :=
  Cipher.rounds S.unstep c (steps n).reverse

theorem recover_wrap (iv : β) (p : Fin n → β) : S.recover (S.wrap iv p) = ⟨iv, p⟩ :=
  Cipher.rounds_undo (fun _ => True) (fun _ _ _ _ => trivial)
    (fun ji _ s _ => S.unstep_step ji s) trivial

/-- Any registers are the wrapping of what they recover to. -/
theorem wrap_recover (c : Registers β n) : S.wrap (S.recover c).a (S.recover c).r = c := by
  have h : Cipher.rounds S.step (Cipher.rounds S.unstep c (steps n).reverse)
      (steps n).reverse.reverse = c :=
    Cipher.rounds_undo (fun _ => True) (fun _ _ _ _ => trivial)
      (fun ji _ s _ => S.step_unstep ji s) trivial
  rwa [List.reverse_reverse] at h

/-- Two marks that agree on the steps there are make the same wrapping. -/
theorem wrap_congr {T : Scheme β} (hcipher : S.cipher = T.cipher)
    (hmark : ∀ t, 0 < t → t ≤ 6 * n → S.mark t = T.mark t) (iv : β) (p : Fin n → β) :
    S.wrap iv p = T.wrap iv p := by
  have hstep : ∀ is : List (Nat × Fin n), (∀ ji ∈ is, ji.1 < 6) → ∀ s,
      Cipher.rounds S.step s is = Cipher.rounds T.step s is := by
    intro is
    induction is with
    | nil =>
      intro _ _
      rfl
    | cons ji is ih =>
      intro his s
      have hj : ji.1 ≤ 5 := Nat.le_of_lt_succ (his ji (.head _))
      have hle : n * ji.1 ≤ n * 5 := Nat.mul_le_mul_left n hj
      have hi := ji.2.isLt
      rw [Cipher.rounds_cons, Cipher.rounds_cons, ih fun kl hkl => his kl (.tail _ hkl)]
      congr 1
      rw [step, step, hcipher, hmark (count n ji) (Nat.succ_pos _) (by rw [count]; omega)]
  refine hstep _ ?_ _
  intro ji hji
  simp only [steps, List.mem_flatMap, List.mem_map, List.mem_range] at hji
  obtain ⟨j, hj, i, -, rfl⟩ := hji
  exact hj

/-- ... and the same recovery. -/
theorem recover_congr {T : Scheme β} (hcipher : S.cipher = T.cipher)
    (hmark : ∀ t, 0 < t → t ≤ 6 * n → S.mark t = T.mark t) (c : Registers β n) :
    S.recover c = T.recover c := by
  have hwrap := T.wrap_recover c
  rw [← S.wrap_congr hcipher hmark] at hwrap
  conv_lhs => rw [← hwrap]
  exact S.recover_wrap _ _

end Scheme

end KeyWrap
