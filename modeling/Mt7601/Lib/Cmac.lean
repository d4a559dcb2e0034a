/-
# CMAC

The message authentication code over a block cipher `E` of 16 octets: its two masks are the doublings
of `E 0` in the field with 2^128 elements, here the polynomials over the field of two elements below
`modulus`; a whole last block takes the first mask, any other is filled up and takes the second.

`double` is the doubling on the bits of a block (`poly_double`). A message has one code
(`IsCode.unique`).
-/
import Mathlib.Algebra.CharP.Two
import Mathlib.Algebra.Polynomial.Div
import Mathlib.Algebra.Field.ZMod
import Mathlib.Tactic.ComputeDegree
import Mathlib.Tactic.LinearCombination
import Mt7601.Lib.Ccm

namespace Cmac

open Polynomial

/-! ## 1. The field -/

/-- Bits as a polynomial. -/
noncomputable def poly (x : BitVec 128) : (ZMod 2)[X] :=
  ∑ i ∈ Finset.range 128, if x.getLsbD i then X ^ i else 0

/-- The bits of a block. -/
def size : ℕ := 128

/-- The polynomial that the field is reduced by, below its first term. -/
noncomputable def low : (ZMod 2)[X] := X ^ 7 + X ^ 2 + X + 1

/-- The polynomial that the field is reduced by. -/
noncomputable def modulus : (ZMod 2)[X] := X ^ size + low

theorem degree_low {n : ℕ} (hn : 7 < n) : low.degree < n := by
  have hle : low.natDegree ≤ 7 := by
    rw [low]
    compute_degree
  exact degree_le_natDegree.trans_lt (Nat.cast_lt.mpr (hle.trans_lt hn))

theorem monic_add_low {n : ℕ} (hn : 7 < n) : (X ^ n + low).Monic := monic_X_pow_add (degree_low hn)

theorem degree_add_low {n : ℕ} (hn : 7 < n) : (X ^ n + low).degree = (n : WithBot ℕ) := by
  have hpow : (X ^ n : (ZMod 2)[X]).degree = (n : WithBot ℕ) := degree_X_pow n
  rw [degree_add_eq_left_of_degree_lt ((degree_low hn).trans_eq hpow.symm), hpow]

theorem seven_lt_size : 7 < size := by decide

theorem monic_modulus : modulus.Monic := by
  unfold modulus
  exact monic_add_low seven_lt_size

theorem coeff_poly (x : BitVec 128) (i : ℕ) :
    (poly x).coeff i = if x.getLsbD i then 1 else 0 := by
  have hterm : ∀ j, (if x.getLsbD j then (X : (ZMod 2)[X]) ^ j else 0).coeff i =
      if i = j then (if x.getLsbD i then 1 else 0) else 0 := by
    intro j
    rw [apply_ite (fun p : (ZMod 2)[X] => p.coeff i), coeff_X_pow, coeff_zero]
    by_cases hij : i = j
    · simp [hij]
    · simp [hij]
  rw [poly, finsetSum_coeff]
  simp only [hterm, Finset.sum_ite_eq, Finset.mem_range]
  rcases Nat.lt_or_ge i 128 with hi | hi
  · rw [if_pos hi]
  · rw [if_neg (Nat.not_lt.mpr hi), BitVec.getLsbD_of_ge x i hi]
    rfl

/-- A block is determined by its polynomial. -/
theorem poly_injective : Function.Injective poly := by
  intro x y h
  refine BitVec.eq_of_getLsbD_eq fun i _ => ?_
  have hcoeff := congrArg (fun p : (ZMod 2)[X] => p.coeff i) h
  simp only [coeff_poly] at hcoeff
  cases hx : x.getLsbD i <;> cases hy : y.getLsbD i <;> simp_all

theorem degree_poly (x : BitVec 128) : (poly x).degree < modulus.degree := by
  have hdegree : modulus.degree = (size : WithBot ℕ) := by
    unfold modulus
    exact degree_add_low seven_lt_size
  rw [hdegree, degree_lt_iff_coeff_zero]
  intro i hi
  rw [coeff_poly, BitVec.getLsbD_of_ge x i hi]
  rfl

theorem poly_xor (x y : BitVec 128) : poly (x ^^^ y) = poly x + poly y := by
  ext i
  rw [coeff_add, coeff_poly, coeff_poly, coeff_poly, BitVec.getLsbD_xor]
  cases x.getLsbD i <;> cases y.getLsbD i <;> decide

/-- A bit to the left, and what falls out. -/
theorem poly_shiftLeft (x : BitVec 128) :
    poly (x <<< 1) + (if x.msb then X ^ size else 0) = X * poly x := by
  ext i
  rw [coeff_add, coeff_poly, apply_ite (fun p : (ZMod 2)[X] => p.coeff i), coeff_X_pow, coeff_zero,
    BitVec.getLsbD_shiftLeft, BitVec.msb_eq_getLsbD_last, size]
  cases i with
  | zero => simp
  | succ i =>
    rw [coeff_X_mul, coeff_poly]
    rcases Nat.lt_trichotomy (i + 1) 128 with hlt | heq | hgt
    · simp [hlt, hlt.ne]
    · obtain rfl : i = 127 := by omega
      simp
    · simp [Nat.not_lt.mpr hgt.le, hgt.ne', BitVec.getLsbD_of_ge x i (by omega)]

/-- `0x87` is what is left of the modulus. -/
theorem poly_constant : poly 0x87 = low := by
  have hpow : ∀ i < 128, poly (BitVec.twoPow 128 i) = X ^ i := by
    intro i hi
    ext j
    rw [coeff_poly, BitVec.getLsbD_twoPow, coeff_X_pow]
    by_cases hij : j = i
    · simp [hij, hi]
    · simp [hij, Ne.symm hij]
  have hsum : (0x87 : BitVec 128) = BitVec.twoPow 128 7 ^^^ BitVec.twoPow 128 2 ^^^
      BitVec.twoPow 128 1 ^^^ BitVec.twoPow 128 0 := by decide
  rw [hsum, poly_xor, poly_xor, poly_xor, hpow 7 (by decide), hpow 2 (by decide),
    hpow 1 (by decide), hpow 0 (by decide), pow_one, pow_zero, low]

/-- The doubling of a block. -/
def double (x : BitVec 128) : BitVec 128 := if x.msb then x <<< 1 ^^^ 0x87 else x <<< 1

/-- A remainder is one if it is short enough. -/
theorem eq_modByMonic {g p r : (ZMod 2)[X]} (hg : g.Monic) (q : (ZMod 2)[X])
    (hr : r.degree < g.degree) (hsum : r + g * q = p) : r = p %ₘ g :=
  (div_modByMonic_unique q r hg ⟨hsum, hr⟩).2.symm

/-- **It is the doubling in the field.** -/
theorem poly_double (x : BitVec 128) : poly (double x) = (X * poly x) %ₘ modulus := by
  have hshift := poly_shiftLeft x
  have hdegree := degree_poly (double x)
  unfold double at hdegree ⊢
  cases hmsb : x.msb with
  | true =>
    simp only [hmsb, if_true] at hshift hdegree ⊢
    refine eq_modByMonic monic_modulus 1 hdegree ?_
    have htwo : low + low = 0 := CharTwo.add_self_eq_zero low
    have hmod : modulus = X ^ size + low := by unfold modulus; rfl
    rw [← hshift, poly_xor, poly_constant, hmod, mul_one]
    linear_combination htwo
  | false =>
    simp only [hmsb, Bool.false_eq_true, if_false] at hshift hdegree ⊢
    refine eq_modByMonic monic_modulus 0 hdegree ?_
    rw [← hshift, mul_zero]

/-! ## 2. Blocks -/

/-- The bits of a block, those of its first octet highest. -/
def bits (b : Octets 16) : BitVec 128 := BitVec.ofNat 128 (beVal b.toList)

theorem toNat_bits (b : Octets 16) : (bits b).toNat = beVal b.toList := by
  have hlt := beVal_lt b.toList
  rw [b.toList_length] at hlt
  rw [bits, BitVec.toNat_ofNat]
  exact Nat.mod_eq_of_lt (hlt.trans_le (by decide))

theorem bits_injective : Function.Injective bits := by
  intro b c h
  have hval := congrArg BitVec.toNat h
  rw [toNat_bits, toNat_bits] at hval
  exact Octets.toList_injective (beVal_injective (by simp) hval)

theorem beVal_zipWith_xor {l m : List UInt8} (h : l.length = m.length) :
    beVal (List.zipWith (· ^^^ ·) l m) = beVal l ^^^ beVal m := by
  induction l generalizing m with
  | nil =>
    rw [List.eq_nil_of_length_eq_zero h.symm]
    rfl
  | cons a l ih =>
    cases m with
    | nil => exact nomatch h
    | cons b m =>
      rw [List.length_cons, List.length_cons, Nat.add_right_cancel_iff] at h
      have hlow := beVal_lt l
      have hlow' := beVal_lt m
      have hscale : 256 ^ m.length = 2 ^ (8 * m.length) := by
        rw [pow_mul]
        rfl
      rw [List.zipWith_cons_cons, beVal, beVal, beVal, ih h, List.length_zipWith, h, Nat.min_self,
        UInt8.toNat_xor]
      rw [h, hscale] at hlow
      rw [hscale] at hlow' ⊢
      refine Nat.eq_of_testBit_eq fun i => ?_
      rw [Nat.mul_comm, Nat.mul_comm a.toNat, Nat.mul_comm b.toNat, Nat.testBit_xor,
        Nat.testBit_two_pow_mul_add _ (Nat.xor_lt_two_pow hlow hlow'),
        Nat.testBit_two_pow_mul_add _ hlow, Nat.testBit_two_pow_mul_add _ hlow']
      split_ifs <;> rw [Nat.testBit_xor]

theorem bits_add (b c : Octets 16) : bits (Ccm.add b c) = bits b ^^^ bits c := by
  refine BitVec.eq_of_toNat_eq ?_
  rw [BitVec.toNat_xor, toNat_bits, toNat_bits, toNat_bits, Ccm.toList_add]
  exact beVal_zipWith_xor (by simp)

/-! ## 3. The code -/

/-- The masks: the doubling of `E 0`, and its doubling. -/
structure Masks (E : Octets 16 → Octets 16) (k₁ k₂ : Octets 16) : Prop where
  first : poly (bits k₁) = (X * poly (bits (E (.zero 16)))) %ₘ modulus
  second : poly (bits k₂) = (X * poly (bits k₁)) %ₘ modulus

/-- The number of blocks, one for the empty message. -/
def blocks (message : List UInt8) : ℕ := max 1 ((message.length + 15) / 16)

/-- Every block but the last. -/
def chained (E : Octets 16 → Octets 16) (message : List UInt8) : Octets 16 :=
  (List.range (blocks message - 1)).foldl (fun x i => E (Ccm.add x (Ccm.blockAt message i)))
    (.zero 16)

/-- The last block with its mask: the first one if it is whole; else it is filled up. -/
def lastBlock (k₁ k₂ : Octets 16) (message : List UInt8) : Octets 16 :=
  let last := message.drop (16 * (blocks message - 1))
  if message ≠ [] ∧ 16 ∣ message.length then Ccm.add (.ofList 16 last) k₁
  else Ccm.add (.ofList 16 (last ++ [0x80])) k₂

/-- The code of a message under the masks. -/
def code (E : Octets 16 → Octets 16) (k₁ k₂ : Octets 16) (message : List UInt8) : Octets 16 :=
  E (Ccm.add (lastBlock k₁ k₂ message) (chained E message))

/-- The code of a message. -/
def IsCode (E : Octets 16 → Octets 16) (message : List UInt8) (t : Octets 16) : Prop :=
  ∃ k₁ k₂, Masks E k₁ k₂ ∧ t = code E k₁ k₂ message

theorem IsCode.unique {E : Octets 16 → Octets 16} {message : List UInt8} {t t' : Octets 16}
    (h : IsCode E message t) (h' : IsCode E message t') : t = t' := by
  obtain ⟨k₁, k₂, hk, rfl⟩ := h
  obtain ⟨l₁, l₂, hl, rfl⟩ := h'
  obtain rfl : k₁ = l₁ := bits_injective (poly_injective (hk.first.trans hl.first.symm))
  obtain rfl : k₂ = l₂ := bits_injective (poly_injective (hk.second.trans hl.second.symm))
  rfl

end Cmac
