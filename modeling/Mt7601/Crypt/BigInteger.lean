/-
# Sums and differences of big integers

`BigInteger_Add` and `BigInteger_Sub` keep a sign and the magnitude in 32-bit words, and call each
other for operands of two signs. Sums of magnitudes are right. A difference compares its words with
`Carry` taken off the subtrahend, which wraps or loses a borrow; beyond the subtrahend a borrow out of
a zero word is one too small; the comparison goes by `IntegerLength` first, and two branches leave a
sign as it was (`bigInteger_iff`).
-/
import Mt7601.Lib.Limbs
import Mathlib.Algebra.Ring.Int.Units
import Mathlib.Data.List.DropRight
import Mathlib.Tactic.Linarith

namespace Mt7601.Crypt

/-! ## 1. Big integers -/

/-- The base of the words. -/
abbrev wordBase : Nat := 2 ^ 32

/-- The number in an array of words, the lowest first. -/
def wordsValue (ws : List UInt32) : Nat := Nat.ofDigits wordBase (ws.map UInt32.toNat)

/-- `ArrayLength` for an `IntegerLength` -/
def arrayLengthOf (integerLength : Nat) : Nat :=
  integerLength / 4 + if integerLength % 4 ≠ 0 then 1 else 0

/-- `BIG_INTEGER` with an array: the words up to `ArrayLength`, the number of octets, leading zeros
included, and the sign. -/
structure BigInteger where
  pIntegerArray : List UInt32
  integerLength : Nat
  signed : ℤˣ
  pos : 0 < integerLength
  arrayLength : pIntegerArray.length = arrayLengthOf integerLength
  fits : wordsValue pIntegerArray < 256 ^ integerLength

namespace BigInteger

/-- The number without its sign. -/
def magnitude (a : BigInteger) : Nat := wordsValue a.pIntegerArray

/-- The number. -/
def value (a : BigInteger) : Int := a.signed * a.magnitude

/-- A copy whose `Signed` is set to 1. -/
def abs (a : BigInteger) : BigInteger := { a with signed := 1 }

/-- No leading zero octet, and zero has `Signed` 1. -/
structure Canonical (a : BigInteger) : Prop where
  length : a.integerLength = 1 ∨ 256 ^ (a.integerLength - 1) ≤ a.magnitude
  sign : a.magnitude = 0 → a.signed = 1

theorem natAbs_value (a : BigInteger) : a.value.natAbs = a.magnitude := by
  rw [value, Int.natAbs_mul, Int.natAbs_natCast, Int.units_natAbs, Nat.one_mul]

theorem value_of_signed {a : BigInteger} (h : a.signed = 1) : a.value = a.magnitude := by
  rw [value, h, Units.val_one, one_mul]

theorem value_of_nonneg {a : BigInteger} (h : 0 ≤ a.value) : a.value = a.magnitude := by
  rw [← natAbs_value, Int.natAbs_of_nonneg h]

/-- Only a zero can have the other sign. -/
theorem signed_of_nonneg {a : BigInteger} (h : 0 ≤ a.value) : a.signed = 1 ∨ a.magnitude = 0 := by
  rcases Int.units_eq_one_or a.signed with hs | hs
  · exact .inl hs
  · rw [value, hs, Units.val_neg, Units.val_one] at h
    exact .inr (by omega)

end BigInteger

/-- What the result object was before: the words it had room for, none if `pIntegerArray` is `NULL`,
and its sign. -/
structure OldResult where
  allocWords : Nat
  signed : ℤˣ

/-- `Signed` behind `BigInteger_AllocSize`: 1 for a new object and where the array was too small,
else what it was. -/
def signedBehindAlloc (old : Option OldResult) (arrayLength : Nat) : ℤˣ :=
  match old with
  | none => 1
  | some o => if 0 < o.allocWords ∧ o.allocWords < arrayLength then 1 else o.signed

theorem wordsValue_nil : wordsValue [] = 0 := rfl

theorem wordsValue_cons (w : UInt32) (ws : List UInt32) :
    wordsValue (w :: ws) = w.toNat + wordBase * wordsValue ws := by
  rw [wordsValue, List.map_cons, Nat.ofDigits_cons, wordsValue]

theorem wordsValue_append_singleton (ws : List UInt32) (w : UInt32) :
    wordsValue (ws ++ [w]) = wordsValue ws + wordBase ^ ws.length * w.toNat := by
  rw [wordsValue, List.map_append, Nat.ofDigits_append, List.length_map, List.map_singleton,
    Nat.ofDigits_singleton, wordsValue]

theorem wordsValue_head_tail (ws : List UInt32) :
    wordsValue ws = (ws.headD 0).toNat + wordBase * wordsValue ws.tail := by
  cases ws with
  | nil => rfl
  | cons w ws => exact wordsValue_cons w ws

theorem toNat_lt_wordBase (ws : List UInt32) : ∀ d ∈ ws.map UInt32.toNat, d < wordBase := by
  intro d hd
  obtain ⟨w, -, rfl⟩ := List.mem_map.mp hd
  exact w.toNat_lt

theorem wordsValue_lt (ws : List UInt32) : wordsValue ws < wordBase ^ ws.length := by
  have h := Nat.ofDigits_lt_base_pow_length (show 1 < wordBase by decide) (toNat_lt_wordBase ws)
  rwa [List.length_map] at h

/-- `BigInteger_AllocSize(pBI_Result, 1)`: a zero. -/
def bigIntegerZero (old : Option OldResult) : BigInteger where
  pIntegerArray := [0]
  integerLength := 1
  signed := signedBehindAlloc old 1
  pos := Nat.one_pos
  arrayLength := rfl
  fits := by decide

/-! ## 2. `BigInteger_ClearHighBits` -/

/-- `UINT32_GETBYTE` -/
def uint32GetByte (w : UInt32) (i : Nat) : Nat := w.toNat / 256 ^ i % 256

/-- The highest octet of a word that is not zero. -/
def topOctet (w : UInt32) : Nat :=
  if uint32GetByte w 3 ≠ 0 then 3
  else if uint32GetByte w 2 ≠ 0 then 2
  else if uint32GetByte w 1 ≠ 0 then 1
  else 0

theorem topOctet_spec {w : UInt32} (h : w ≠ 0) :
    topOctet w ≤ 3 ∧ 256 ^ topOctet w ≤ w.toNat ∧ w.toNat < 256 ^ (topOctet w + 1) := by
  have hne : w.toNat ≠ 0 := fun h0 => h (UInt32.toNat_inj.mp h0)
  have hlt := w.toNat_lt
  unfold topOctet uint32GetByte
  split_ifs <;> norm_num at * <;> omega

/-- The words up to the highest one that is not zero. -/
def clearHighWords (ws : List UInt32) : List UInt32 := ws.rdropWhile fun w => decide (w = 0)

theorem clearHighWords_zero (ws : List UInt32) : clearHighWords (ws ++ [0]) = clearHighWords ws :=
  List.rdropWhile_concat_pos _ _ _ rfl

theorem clearHighWords_of_ne_zero {w : UInt32} (ws : List UInt32) (h : w ≠ 0) :
    clearHighWords (ws ++ [w]) = ws ++ [w] :=
  List.rdropWhile_concat_neg _ _ _ fun hw => h (of_decide_eq_true hw)

theorem wordsValue_clearHighWords (ws : List UInt32) :
    wordsValue (clearHighWords ws) = wordsValue ws := by
  induction ws using List.reverseRecOn with
  | nil => rfl
  | append_singleton ws w ih =>
    by_cases hw : w = 0
    · rw [hw, clearHighWords_zero, ih, wordsValue_append_singleton, UInt32.toNat_zero, Nat.mul_zero,
        Nat.add_zero]
    · rw [clearHighWords_of_ne_zero ws hw]

/-- The highest word that is left is not zero. -/
theorem getLast_clearHighWords {ws : List UInt32} (h : clearHighWords ws ≠ []) :
    (clearHighWords ws).getLast h ≠ 0 := by
  have hlast := List.rdropWhile_last_not (fun w => decide (w = 0)) ws h
  exact fun hw => hlast (decide_eq_true hw)

theorem wordBase_pow (n : Nat) : wordBase ^ n = 256 ^ (4 * n) := by
  rw [pow_mul]
  rfl

/-- The octets of a number whose highest word is not zero. -/
theorem octets_of_getLast {ws : List UInt32} (h : ws ≠ []) (hlast : ws.getLast h ≠ 0) :
    256 ^ (4 * (ws.length - 1) + topOctet (ws.getLast h)) ≤ wordsValue ws ∧
      wordsValue ws < 256 ^ (4 * (ws.length - 1) + topOctet (ws.getLast h) + 1) := by
  obtain ⟨-, hle, hlt⟩ := topOctet_spec hlast
  have hlow := wordsValue_lt ws.dropLast
  have hvalue := wordsValue_append_singleton ws.dropLast (ws.getLast h)
  rw [List.dropLast_append_getLast h] at hvalue
  rw [wordBase_pow, List.length_dropLast] at hlow hvalue
  rw [hvalue, Nat.add_assoc, pow_add, pow_add]
  generalize ws.getLast h = w at *
  generalize 256 ^ (4 * (ws.length - 1)) = scale at *
  have hmin : scale * 256 ^ topOctet w ≤ scale * w.toNat := Nat.mul_le_mul_left _ hle
  have hmax : scale * (w.toNat + 1) ≤ scale * 256 ^ (topOctet w + 1) :=
    Nat.mul_le_mul_left _ hlt
  rw [Nat.mul_add, Nat.mul_one] at hmax
  omega

/-- `BigInteger_ClearHighBits` -/
def bigIntegerClearHighBits (ws : List UInt32) (signed : ℤˣ) : BigInteger :=
  if h : clearHighWords ws = [] then
    { pIntegerArray := [0]
      integerLength := 1
      signed := 1
      pos := Nat.one_pos
      arrayLength := rfl
      fits := by decide }
  else
    { pIntegerArray := clearHighWords ws
      integerLength := 4 * ((clearHighWords ws).length - 1) + topOctet ((clearHighWords ws).getLast h) + 1
      signed := signed
      pos := Nat.succ_pos _
      arrayLength := by
        have htop := (topOctet_spec (getLast_clearHighWords h)).1
        have hpos := List.length_pos_iff.mpr h
        rw [arrayLengthOf]
        split_ifs <;> omega
      fits := (octets_of_getLast h (getLast_clearHighWords h)).2 }

/-- The number is the same, and its length is canonical. -/
theorem clearHighBits_spec (ws : List UInt32) (signed : ℤˣ) :
    (bigIntegerClearHighBits ws signed).magnitude = wordsValue ws ∧
      (bigIntegerClearHighBits ws signed).Canonical ∧
      (bigIntegerClearHighBits ws signed).signed = if wordsValue ws = 0 then 1 else signed := by
  rw [← wordsValue_clearHighWords ws]
  by_cases h : clearHighWords ws = []
  · rw [bigIntegerClearHighBits, dif_pos h, h, wordsValue_nil, if_pos rfl]
    exact ⟨rfl, ⟨.inl rfl, fun _ => rfl⟩, rfl⟩
  · have hoctets := octets_of_getLast h (getLast_clearHighWords h)
    have hne : wordsValue (clearHighWords ws) ≠ 0 := by
      have hpos : 0 < 256 ^ (4 * ((clearHighWords ws).length - 1) +
          topOctet ((clearHighWords ws).getLast h)) := Nat.pow_pos (by decide)
      omega
    rw [bigIntegerClearHighBits, dif_neg h, if_neg hne]
    exact ⟨rfl, ⟨.inr hoctets.1, fun hzero => absurd hzero hne⟩, rfl⟩

theorem magnitude_clearHighBits (ws : List UInt32) (signed : ℤˣ) :
    (bigIntegerClearHighBits ws signed).magnitude = wordsValue ws :=
  (clearHighBits_spec ws signed).1

/-! ## 3. `BigInteger_UnsignedCompare` -/

/-- The words from the highest one down. -/
def compareDown : List UInt32 → List UInt32 → Ordering
  | a :: as, b :: bs => if b < a then .gt else if a < b then .lt else compareDown as bs
  | _, _ => .eq

/-- `BigInteger_UnsignedCompare`: 1, -1 or 0. -/
def bigIntegerUnsignedCompare (a b : BigInteger) : Ordering :=
  if b.integerLength < a.integerLength then .gt
  else if a.integerLength < b.integerLength then .lt
  else compareDown a.pIntegerArray.reverse b.pIntegerArray.reverse

theorem compareDown_spec {as bs : List UInt32} (hlen : as.length = bs.length) :
    compareDown as bs = compare (wordsValue as.reverse) (wordsValue bs.reverse) := by
  induction as generalizing bs with
  | nil =>
    rw [List.eq_nil_of_length_eq_zero hlen.symm]
    rfl
  | cons a as ih =>
    cases bs with
    | nil => exact nomatch hlen
    | cons b bs =>
      rw [List.length_cons, List.length_cons, Nat.add_right_cancel_iff] at hlen
      have hlow := wordsValue_lt as.reverse
      have hlow' := wordsValue_lt bs.reverse
      rw [compareDown, ih hlen, List.reverse_cons, List.reverse_cons, wordsValue_append_singleton,
        wordsValue_append_singleton]
      rw [List.length_reverse] at hlow hlow' ⊢
      rw [List.length_reverse, hlen] at *
      generalize wordsValue as.reverse = x at *
      generalize wordsValue bs.reverse = y at *
      generalize wordBase ^ bs.length = scale at *
      rcases Nat.lt_trichotomy a.toNat b.toNat with hlt | heq | hgt
      · have hmul : scale * (a.toNat + 1) ≤ scale * b.toNat := Nat.mul_le_mul_left _ hlt
        rw [Nat.mul_add, Nat.mul_one] at hmul
        rw [if_neg (by rw [UInt32.lt_iff_toNat_lt]; omega),
          if_pos (UInt32.lt_iff_toNat_lt.mpr hlt)]
        exact (compare_lt_iff_lt.mpr (by omega)).symm
      · rw [if_neg (by rw [UInt32.lt_iff_toNat_lt]; omega),
          if_neg (by rw [UInt32.lt_iff_toNat_lt]; omega), heq]
        rcases Nat.lt_trichotomy x y with h | h | h
        · rw [compare_lt_iff_lt.mpr h, compare_lt_iff_lt.mpr (by omega)]
        · rw [compare_eq_iff_eq.mpr h, compare_eq_iff_eq.mpr (by omega)]
        · rw [compare_gt_iff_gt.mpr h, compare_gt_iff_gt.mpr (by omega)]
      · have hmul : scale * (b.toNat + 1) ≤ scale * a.toNat := Nat.mul_le_mul_left _ hgt
        rw [Nat.mul_add, Nat.mul_one] at hmul
        rw [if_pos (UInt32.lt_iff_toNat_lt.mpr hgt)]
        exact (compare_gt_iff_gt.mpr (by omega)).symm

section

variable {a b : BigInteger}

/-- Of two numbers with one length the larger is found. -/
theorem unsignedCompare_of_length_eq (h : a.integerLength = b.integerLength) :
    bigIntegerUnsignedCompare a b = compare a.magnitude b.magnitude := by
  have hlen : a.pIntegerArray.reverse.length = b.pIntegerArray.reverse.length := by
    rw [List.length_reverse, List.length_reverse, a.arrayLength, b.arrayLength, h]
  rw [bigIntegerUnsignedCompare, if_neg (by omega), if_neg (by omega), compareDown_spec hlen,
    List.reverse_reverse, List.reverse_reverse]
  rfl

theorem unsignedCompare_cases :
    bigIntegerUnsignedCompare a b = .gt ∧ b.integerLength < a.integerLength ∨
      bigIntegerUnsignedCompare a b = .lt ∧ a.integerLength < b.integerLength ∨
      a.integerLength = b.integerLength ∧
        bigIntegerUnsignedCompare a b = compare a.magnitude b.magnitude := by
  rcases Nat.lt_trichotomy a.integerLength b.integerLength with hlt | heq | hgt
  · refine .inr (.inl ⟨?_, hlt⟩)
    rw [bigIntegerUnsignedCompare, if_neg (Nat.lt_asymm hlt), if_pos hlt]
  · exact .inr (.inr ⟨heq, unsignedCompare_of_length_eq heq⟩)
  · refine .inl ⟨?_, hgt⟩
    rw [bigIntegerUnsignedCompare, if_pos hgt]

theorem unsignedCompare_eq (h : bigIntegerUnsignedCompare a b = .eq) :
    a.magnitude = b.magnitude := by
  rcases unsignedCompare_cases (a := a) (b := b) with ⟨hc, -⟩ | ⟨hc, -⟩ | ⟨-, hc⟩
  · exact nomatch hc.symm.trans h
  · exact nomatch hc.symm.trans h
  · exact compare_eq_iff_eq.mp (hc.symm.trans h)

theorem unsignedCompare_gt (h : bigIntegerUnsignedCompare a b = .gt) :
    b.integerLength ≤ a.integerLength ∧
      (a.magnitude < b.magnitude → b.integerLength < a.integerLength) := by
  rcases unsignedCompare_cases (a := a) (b := b) with ⟨-, hlt⟩ | ⟨hc, -⟩ | ⟨heq, hc⟩
  · exact ⟨hlt.le, fun _ => hlt⟩
  · exact nomatch hc.symm.trans h
  · have hgt := compare_gt_iff_gt.mp (hc.symm.trans h)
    exact ⟨heq.symm.le, fun hlt => absurd hlt (Nat.lt_asymm hgt)⟩

theorem unsignedCompare_swap :
    bigIntegerUnsignedCompare b a = (bigIntegerUnsignedCompare a b).swap := by
  rcases unsignedCompare_cases (a := a) (b := b) with ⟨hc, hlt⟩ | ⟨hc, hlt⟩ | ⟨heq, hc⟩
  · rw [hc, bigIntegerUnsignedCompare, if_neg (Nat.lt_asymm hlt), if_pos hlt]
    rfl
  · rw [hc, bigIntegerUnsignedCompare, if_pos hlt]
    rfl
  · rw [hc, unsignedCompare_of_length_eq heq.symm]
    exact (Std.OrientedCmp.eq_swap).trans rfl

end

/-! ## 4. The loop of `BigInteger_Add` -/

/-- The words of a sum, with a `Carry` of 64 bits. -/
def sumWords : Nat → List UInt32 → List UInt32 → UInt64 → List UInt32
  | 0, _, _, _ => []
  | n + 1, as, bs, carry =>
    let sum := (as.headD 0).toUInt64 + (bs.headD 0).toUInt64 + carry
    (sum &&& 0xffffffff).toUInt32 :: sumWords n as.tail bs.tail (sum >>> 32)

theorem toNat_headD (ws : List UInt32) : (ws.map UInt32.toNat).headD 0 = (ws.headD 0).toNat := by
  cases ws <;> rfl

theorem toNat_mask (sum : UInt64) : (sum &&& 0xffffffff).toNat = sum.toNat % wordBase := by
  rw [UInt64.toNat_and, show (0xffffffff : UInt64).toNat = 2 ^ 32 - 1 from rfl,
    Nat.and_two_pow_sub_one_eq_mod]

theorem toNat_low (sum : UInt64) :
    (sum &&& 0xffffffff).toUInt32.toNat = sum.toNat % wordBase := by
  rw [UInt64.toNat_toUInt32, toNat_mask, Nat.mod_mod]

theorem toNat_high (sum : UInt64) : (sum >>> 32).toNat = sum.toNat / wordBase := by
  rw [UInt64.toNat_shiftRight, show (32 : UInt64).toNat % 64 = 32 from rfl,
    Nat.shiftRight_eq_div_pow]

/-- The loop is the schoolbook addition. -/
theorem map_sumWords (n : Nat) (as bs : List UInt32) {carry : UInt64} (hcarry : carry.toNat ≤ 1) :
    (sumWords n as bs carry).map UInt32.toNat =
      Limbs.add wordBase n (as.map UInt32.toNat) (bs.map UInt32.toNat) carry.toNat := by
  induction n generalizing as bs carry with
  | zero => rfl
  | succ n ih =>
    have ha := (as.headD 0).toNat_lt
    have hb := (bs.headD 0).toNat_lt
    have hsum : ((as.headD 0).toUInt64 + (bs.headD 0).toUInt64 + carry).toNat =
        (as.headD 0).toNat + (bs.headD 0).toNat + carry.toNat := by
      rw [UInt64.toNat_add, UInt64.toNat_add, UInt32.toNat_toUInt64, UInt32.toNat_toUInt64]
      omega
    rw [sumWords, Limbs.add]
    generalize (as.headD 0).toUInt64 + (bs.headD 0).toUInt64 + carry = sum at *
    have hnext : (sum >>> 32).toNat ≤ 1 := by
      have hdiv : sum.toNat / 2 ^ 32 ≤ 1 := by omega
      exact (toNat_high sum).trans_le hdiv
    rw [List.map_cons, ih _ _ hnext, toNat_low, toNat_high, hsum, toNat_headD, toNat_headD, List.map_tail,
      List.map_tail]

/-- **The words are those of the sum, if there is room for it.** -/
theorem wordsValue_sumWords {n : Nat} {as bs : List UInt32}
    (hfits : wordsValue as + wordsValue bs < wordBase ^ n) :
    wordsValue (sumWords n as bs 0) = wordsValue as + wordsValue bs := by
  have hcarry : (0 : UInt64).toNat ≤ 1 := Nat.zero_le 1
  rw [wordsValue, map_sumWords n as bs hcarry, Limbs.ofDigits_add]
  exact Nat.mod_eq_of_lt hfits

/-! ## 5. The loop of `BigInteger_Sub` -/

/-- The words of a difference, with a `Carry` of 32 bits. -/
def diffWords : List UInt32 → List UInt32 → UInt32 → List UInt32
  | [], _, _ => []
  | a :: as, b :: bs, carry =>
    if b - carry ≤ a then (a - b - carry) :: diffWords as bs 0
    else (0xffffffff - b - carry + a + 1) :: diffWords as bs 1
  | a :: as, [], carry =>
    if carry ≤ a then (a - carry) :: diffWords as [] 0
    else (0xffffffff - carry) :: diffWords as [] 1

/-- With a borrow pending, the test for the next one comes out right. -/
def BorrowRight (a b : UInt32) : Prop :=
  if b = 0 then a = 0 ∨ a = 0xffffffff else a ≠ b - 1 ∧ a ≠ b

/-- **Where a borrow is pending**, the next one comes out right, which does not matter in the highest
word; and behind the subtrahend the word is not zero. -/
def BorrowsWell (as bs : List UInt32) (borrow : Nat) : Prop :=
  ∀ i (hi : i < as.length),
    Limbs.Borrows wordBase (as.map UInt32.toNat) (bs.map UInt32.toNat) borrow i →
    match bs[i]? with
    | some b => i + 1 < as.length → BorrowRight as[i] b
    | none => as[i] ≠ 0

/-- The borrow out of a word. -/
def borrowOf (a b borrow : Nat) : Nat := if a < b + borrow then 1 else 0

theorem borrowOf_le (a b borrow : Nat) : borrowOf a b borrow ≤ 1 := by
  unfold borrowOf
  split_ifs <;> omega

theorem borrowsWell_cons {a b : UInt32} {as bs : List UInt32} {borrow : Nat} (hborrow : borrow ≤ 1) :
    BorrowsWell (a :: as) (b :: bs) borrow ↔
      (0 < borrow → as ≠ [] → BorrowRight a b) ∧
        BorrowsWell as bs (borrowOf a.toNat b.toNat borrow) := by
  have hstep : ∀ i, Limbs.Borrows wordBase ((a :: as).map UInt32.toNat)
      ((b :: bs).map UInt32.toNat) borrow (i + 1) ↔
      Limbs.Borrows wordBase (as.map UInt32.toNat) (bs.map UInt32.toNat)
        (borrowOf a.toNat b.toNat borrow) i :=
    fun i => Limbs.borrows_cons a.toNat_lt b.toNat_lt hborrow
  constructor
  · intro h
    refine ⟨fun hpos hne => ?_, fun i hi hb => ?_⟩
    · exact h 0 (Nat.succ_pos _) (Limbs.borrows_zero.mpr hpos)
        (Nat.succ_lt_succ (List.length_pos_iff.mpr hne))
    · have hi' := h (i + 1) (Nat.succ_lt_succ hi) ((hstep i).mpr hb)
      rw [List.getElem?_cons_succ] at hi'
      cases hget : bs[i]? with
      | none =>
        rw [hget] at hi'
        exact hi'
      | some v =>
        rw [hget] at hi'
        exact fun hlt => hi' (Nat.succ_lt_succ hlt)
  · rintro ⟨hhead, htail⟩ i hi hb
    cases i with
    | zero =>
      exact fun hlt => hhead (Limbs.borrows_zero.mp hb)
        (List.length_pos_iff.mp (Nat.lt_of_succ_lt_succ hlt))
    | succ i =>
      have hi' := htail i (Nat.lt_of_succ_lt_succ hi) ((hstep i).mp hb)
      rw [List.getElem?_cons_succ]
      cases hget : bs[i]? with
      | none =>
        rw [hget] at hi'
        exact hi'
      | some v =>
        rw [hget] at hi'
        exact fun hlt => hi' (Nat.lt_of_succ_lt_succ hlt)

theorem borrowsWell_cons_nil {a : UInt32} {as : List UInt32} {borrow : Nat} (hborrow : borrow ≤ 1) :
    BorrowsWell (a :: as) [] borrow ↔
      (0 < borrow → a ≠ 0) ∧ BorrowsWell as [] (borrowOf a.toNat 0 borrow) := by
  have hstep : ∀ i, Limbs.Borrows wordBase ((a :: as).map UInt32.toNat) [] borrow (i + 1) ↔
      Limbs.Borrows wordBase (as.map UInt32.toNat) [] (borrowOf a.toNat 0 borrow) i :=
    fun i => Limbs.borrows_cons a.toNat_lt (show 0 < wordBase by decide) hborrow
  constructor
  · intro h
    refine ⟨fun hpos => ?_, fun i hi hb => ?_⟩
    · exact h 0 (Nat.succ_pos _) (Limbs.borrows_zero.mpr hpos)
    · exact h (i + 1) (Nat.succ_lt_succ hi) ((hstep i).mpr hb)
  · rintro ⟨hhead, htail⟩ i hi hb
    cases i with
    | zero => exact hhead (Limbs.borrows_zero.mp hb)
    | succ i => exact htail i (Nat.lt_of_succ_lt_succ hi) ((hstep i).mp hb)

theorem toNat_zero_le : (0 : UInt32).toNat ≤ 1 := Nat.zero_le 1

/-- A word of the difference: it has the borrow that goes on in it. -/
theorem toNat_diff (a b : UInt32) {carry : UInt32} (hcarry : carry.toNat ≤ 1) :
    ((a - b - carry).toNat : Int) =
      a.toNat - b.toNat - carry.toNat + wordBase * borrowOf a.toNat b.toNat carry.toNat := by
  have ha := a.toNat_lt
  have hb := b.toNat_lt
  have hbase : (wordBase : Int) = 4294967296 := rfl
  rw [UInt32.toNat_sub, UInt32.toNat_sub, borrowOf, hbase]
  split_ifs <;> omega

/-- Both branches write this word. -/
theorem diff_eq (a b carry : UInt32) : 0xffffffff - b - carry + a + 1 = a - b - carry := by
  have h : (0xffffffff : UInt32).toNat = 4294967295 := rfl
  have h1 : (1 : UInt32).toNat = 1 := rfl
  have ha := a.toNat_lt
  have hb := b.toNat_lt
  have hcarry := carry.toNat_lt
  rw [← UInt32.toNat_inj]
  simp only [UInt32.toNat_add, UInt32.toNat_sub, h, h1]
  omega

/-- `Carry` behind a word. -/
def nextCarry (a b carry : UInt32) : UInt32 := if b - carry ≤ a then 0 else 1

theorem nextCarry_le (a b carry : UInt32) : (nextCarry a b carry).toNat ≤ 1 := by
  unfold nextCarry
  split_ifs <;> decide

theorem diffWords_cons (a b carry : UInt32) (as bs : List UInt32) :
    diffWords (a :: as) (b :: bs) carry =
      (a - b - carry) :: diffWords as bs (nextCarry a b carry) := by
  rw [diffWords, diff_eq, nextCarry]
  split_ifs <;> rfl

/-- **With no borrow pending the next one is right; with one, it is in the two kinds of words.** -/
theorem nextCarry_eq_iff {a b carry : UInt32} (hcarry : carry.toNat ≤ 1) :
    (nextCarry a b carry).toNat = borrowOf a.toNat b.toNat carry.toNat ↔
      (0 < carry.toNat → BorrowRight a b) := by
  have ha := a.toNat_lt
  have hb := b.toNat_lt
  have hmax : (0xffffffff : UInt32).toNat = 4294967295 := rfl
  have h1 : (1 : UInt32).toNat = 1 := rfl
  have h0 : (0 : UInt32).toNat = 0 := rfl
  rcases Nat.le_one_iff_eq_zero_or_eq_one.mp hcarry with hc | hc
  · have hright : (nextCarry a b carry).toNat = borrowOf a.toNat b.toNat carry.toNat := by
      rw [nextCarry, borrowOf, UInt32.toNat_inj.mp (hc.trans h0.symm), UInt32.sub_zero]
      simp only [UInt32.le_iff_toNat_le, h0]
      split_ifs <;> simp only [h0, h1] <;> omega
    exact iff_of_true hright fun h => absurd hc h.ne'
  · rw [nextCarry, borrowOf, UInt32.toNat_inj.mp (hc.trans h1.symm), BorrowRight]
    simp only [UInt32.le_iff_toNat_le, ← UInt32.toNat_inj, ne_eq, UInt32.toNat_sub, hmax, h1, h0,
      zero_lt_one, forall_const]
    split_ifs <;> omega

theorem diffWords_nil_zero (as : List UInt32) : diffWords as [] 0 = as := by
  induction as with
  | nil => rfl
  | cons a as ih =>
    rw [diffWords, if_pos (UInt32.le_iff_toNat_le.mpr (Nat.zero_le _)), ih, UInt32.sub_zero]

/-- The first word of a difference: right, or one too small behind the subtrahend. -/
theorem head_diffWords (a : UInt32) (as bs : List UInt32) {carry : UInt32} (hcarry : carry.toNat ≤ 1) :
    ∃ r rest lost, diffWords (a :: as) bs carry = r :: rest ∧
      (r.toNat : Int) ≡ a.toNat - (bs.headD 0).toNat - carry.toNat - lost [ZMOD wordBase] ∧
      (lost = 0 ∨ lost = 1 ∧ a.toNat = 0 ∧ (bs.headD 0).toNat = 0 ∧ carry.toNat = 1) := by
  have hbase : (wordBase : Int) = 4294967296 := rfl
  cases bs with
  | cons b bs =>
    refine ⟨_, _, 0, diffWords_cons a b carry as bs, ?_, .inl rfl⟩
    rw [toNat_diff a b hcarry, List.headD_cons, sub_zero]
    exact Int.modEq_iff_dvd.mpr ⟨-borrowOf a.toNat b.toNat carry.toNat, by ring⟩
  | nil =>
    have ha := a.toNat_lt
    have hmax : (0xffffffff : UInt32).toNat = 4294967295 := rfl
    by_cases hle : carry ≤ a
    · refine ⟨a - carry, diffWords as [] 0, 0, by rw [diffWords, if_pos hle], ?_, .inl rfl⟩
      rw [UInt32.le_iff_toNat_le] at hle
      rw [UInt32.toNat_sub_of_le _ _ hle, Nat.cast_sub hle]
      have h0 : (([] : List UInt32).headD 0).toNat = 0 := rfl
      rw [h0, Nat.cast_zero, sub_zero, sub_zero]
    · refine ⟨0xffffffff - carry, diffWords as [] 1, 1, by rw [diffWords, if_neg hle], ?_, .inr ?_⟩
      · rw [UInt32.le_iff_toNat_le] at hle
        have hle' : carry ≤ 0xffffffff := UInt32.le_iff_toNat_le.mpr (by omega)
        rw [UInt32.toNat_sub_of_le _ _ hle', hmax, Int.modEq_iff_dvd]
        refine ⟨-1, ?_⟩
        have h0 : (([] : List UInt32).headD 0).toNat = 0 := rfl
        rw [hbase, h0]
        omega
      · rw [UInt32.le_iff_toNat_le] at hle
        exact ⟨rfl, by omega, rfl, by omega⟩

/-- **If the borrow that goes on is not the right one, the next word is wrong.** -/
theorem not_modEq_diffWords {a : UInt32} {as bs : List UInt32} {carry : UInt32} {borrow : Nat} {M : Int}
    (hcarry : carry.toNat ≤ 1) (hborrow : borrow ≤ 1) (hne : carry.toNat ≠ borrow) :
    ¬ (wordsValue (diffWords (a :: as) bs carry) : Int) ≡
      wordsValue (a :: as) - wordsValue bs - borrow [ZMOD wordBase * M] := by
  obtain ⟨r, rest, lost, hwords, hr, hlost⟩ := head_diffWords a as bs hcarry
  have hbase : (wordBase : Int) = 4294967296 := rfl
  intro h
  rw [hwords, wordsValue_cons, wordsValue_cons, wordsValue_head_tail bs] at h
  push_cast at h
  have hhead : (r.toNat : Int) ≡ a.toNat - (bs.headD 0).toNat - borrow [ZMOD wordBase] := by
    refine Limbs.modEq_head (X := wordsValue rest) (Y := wordsValue as - wordsValue bs.tail)
      (M := M) ?_
    have heq : (a.toNat : Int) + wordBase * wordsValue as -
        ((bs.headD 0).toNat + wordBase * wordsValue bs.tail) - borrow =
        a.toNat - (bs.headD 0).toNat - borrow +
          wordBase * (wordsValue as - wordsValue bs.tail) := by ring
    exact heq ▸ h
  have hdvd := Int.modEq_iff_dvd.mp (hr.symm.trans hhead)
  obtain ⟨k, hk⟩ := hdvd
  rw [hbase] at hk
  omega

/-- **The words are those of the difference exactly if every borrow goes well.** -/
theorem diffWords_modEq_iff (as bs : List UInt32) {carry : UInt32} (hcarry : carry.toNat ≤ 1) :
    ((wordsValue (diffWords as bs carry) : Int) ≡
      wordsValue as - wordsValue bs - carry.toNat [ZMOD wordBase ^ as.length]) ↔
      BorrowsWell as bs carry.toNat := by
  have hpos : 0 < wordBase := by decide
  induction as generalizing bs carry with
  | nil =>
    rw [List.length_nil, pow_zero]
    exact iff_of_true Int.modEq_one fun i hi => absurd hi (Nat.not_lt_zero i)
  | cons a as ih =>
    cases bs with
    | cons b bs =>
      have hborrow := borrowOf_le a.toNat b.toNat carry.toNat
      rw [diffWords_cons, wordsValue_cons, wordsValue_cons, wordsValue_cons, List.length_cons,
        pow_succ', borrowsWell_cons hcarry]
      simp only [Nat.cast_add, Nat.cast_mul]
      rw [Limbs.sub_cons_iff hpos (toNat_diff a b hcarry)]
      by_cases hright : (nextCarry a b carry).toNat = borrowOf a.toNat b.toNat carry.toNat
      · rw [← hright]
        refine (ih bs (nextCarry_le a b carry)).trans ?_
        exact (and_iff_right fun h _ => (nextCarry_eq_iff hcarry).mp hright h).symm
      · cases as with
        | nil =>
          rw [List.length_nil, pow_zero]
          exact iff_of_true Int.modEq_one
            ⟨fun _ h => absurd rfl h, fun i hi => absurd hi (Nat.not_lt_zero i)⟩
        | cons a' as =>
          rw [List.length_cons, pow_succ']
          refine iff_of_false (not_modEq_diffWords (nextCarry_le a b carry) hborrow hright) ?_
          exact fun h => hright ((nextCarry_eq_iff hcarry).mpr fun hc => h.1 hc (List.cons_ne_nil _ _))
    | nil =>
      rw [borrowsWell_cons_nil hcarry, diffWords]
      by_cases hle : carry ≤ a
      · have hle' := UInt32.le_iff_toNat_le.mp hle
        have hnone : borrowOf a.toNat 0 carry.toNat = 0 := by
          rw [borrowOf, if_neg (by omega)]
        have hwell : BorrowsWell as [] 0 := by
          have hih := ih [] toNat_zero_le
          rw [diffWords_nil_zero] at hih
          refine hih.mp ?_
          simp [wordsValue_nil]
        rw [if_pos hle, diffWords_nil_zero, hnone, wordsValue_cons, wordsValue_cons, wordsValue_nil,
          UInt32.toNat_sub_of_le _ _ hle]
        simp only [Nat.cast_add, Nat.cast_mul, Nat.cast_sub hle', Nat.cast_zero]
        refine iff_of_true ?_ ⟨fun hc h0 => ?_, hwell⟩
        · rw [show (a.toNat : Int) - carry.toNat + wordBase * wordsValue as =
            a.toNat + wordBase * wordsValue as - 0 - carry.toNat by ring]
        · rw [h0, UInt32.toNat_zero] at hle'
          omega
      · -- the word is zero and becomes one too small
        have hlost := UInt32.le_iff_toNat_le.not.mp hle
        have hmax : (0xffffffff : UInt32).toNat = 4294967295 := rfl
        have hsub : carry ≤ 0xffffffff := UInt32.le_iff_toNat_le.mpr (by omega)
        have hbase : (wordBase : Int) = 4294967296 := rfl
        rw [if_neg hle, wordsValue_cons, wordsValue_cons, wordsValue_nil, List.length_cons, pow_succ',
          UInt32.toNat_sub_of_le _ _ hsub, hmax]
        refine iff_of_false (fun h => ?_) fun h => h.1 (by omega) (UInt32.toNat_inj.mp (by
          rw [UInt32.toNat_zero]
          omega))
        simp only [Nat.cast_add, Nat.cast_mul, Nat.cast_zero] at h
        have heq : (a.toNat : Int) + wordBase * wordsValue as - 0 - carry.toNat =
            (a.toNat - carry.toNat : Int) + wordBase * wordsValue as := by ring
        rw [heq] at h
        obtain ⟨k, hk⟩ := Int.modEq_iff_dvd.mp (Limbs.modEq_head h)
        rw [hbase] at hk
        omega

/-- The borrow out of a first word is right. -/
theorem nextCarry_zero (a b : UInt32) :
    (nextCarry a b 0).toNat = borrowOf a.toNat b.toNat 0 :=
  (nextCarry_eq_iff toNat_zero_le).mpr fun h => absurd h (Nat.lt_irrefl 0)

/-- **A difference is not the one the other way round**: its lowest word that is not zero would have
to be its highest one. -/
theorem diffWords_not_mirrored (as bs : List UInt32)
    (h : (wordsValue (diffWords as bs 0) : Int) ≡ wordsValue bs - wordsValue as
      [ZMOD wordBase ^ as.length]) :
    (wordBase : Int) ^ as.length ∣ 2 * (wordsValue bs - wordsValue as) := by
  have hbase : (wordBase : Int) = 4294967296 := rfl
  have hne : (wordBase : Int) ≠ 0 := by decide
  induction as generalizing bs with
  | nil => exact one_dvd _
  | cons a as ih =>
    cases bs with
    | nil =>
      rw [diffWords_nil_zero, wordsValue_nil] at h
      have hdvd := Int.modEq_iff_dvd.mp h
      rw [wordsValue_nil]
      have heq : 2 * (((0 : Nat) : Int) - wordsValue (a :: as)) =
          ((0 : Nat) : Int) - wordsValue (a :: as) - wordsValue (a :: as) := by
        rw [Nat.cast_zero]
        ring
      rw [heq]
      exact hdvd
    | cons b bs =>
      have hword := toNat_diff a b toNat_zero_le
      have ha := a.toNat_lt
      have hb := b.toNat_lt
      have hr := (a - b - 0).toNat_lt
      have hk := borrowOf_le a.toNat b.toNat 0
      have hcarry := nextCarry_zero a b
      rw [UInt32.toNat_zero] at hword
      rw [diffWords_cons, List.length_cons, pow_succ'] at h
      rw [wordsValue_cons, wordsValue_cons, wordsValue_cons] at h
      rw [wordsValue_cons, wordsValue_cons, List.length_cons, pow_succ']
      simp only [Nat.cast_add, Nat.cast_mul] at h ⊢
      generalize (a - b - 0).toNat = r at *
      generalize borrowOf a.toNat b.toNat 0 = k at *
      generalize nextCarry a b 0 = carry at *
      have hfirst : (r : Int) ≡ b.toNat - a.toNat [ZMOD wordBase] := by
        refine Limbs.modEq_head (Y := (wordsValue bs - wordsValue as : Int)) (h.trans ?_)
        rw [show (b.toNat + wordBase * wordsValue bs - (a.toNat + wordBase * wordsValue as) : Int) =
          b.toNat - a.toNat + wordBase * (wordsValue bs - wordsValue as) by ring]
      obtain ⟨u, hu⟩ := Int.modEq_iff_dvd.mp hfirst
      rw [hbase] at hu hword
      by_cases heq : a.toNat = b.toNat
      · have hzero : carry = 0 := UInt32.toNat_inj.mp (hcarry.trans (show k = 0 by omega))
        have hrest := (Limbs.sub_cons_iff (show 0 < wordBase by decide)
          (show (r : Int) = b.toNat - a.toNat - 0 + wordBase * 0 by omega)).mp
            (show _ ≡ (b.toNat + wordBase * wordsValue bs : Int) -
              (a.toNat + wordBase * wordsValue as) - 0 [ZMOD _] by rw [sub_zero]; exact h)
        rw [hzero, sub_zero] at hrest
        have hdvd := ih bs hrest
        rw [heq, show 2 * (b.toNat + wordBase * wordsValue bs -
          (b.toNat + wordBase * wordsValue as) : Int) =
            wordBase * (2 * (wordsValue bs - wordsValue as)) by ring]
        exact Int.mul_dvd_mul_left _ hdvd
      · cases as with
        | nil =>
          rw [List.length_nil, pow_zero, mul_one, wordsValue_nil, hbase]
          omega
        | cons a' as =>
          -- the first word is half of the base, and the second cannot be right both ways
          obtain ⟨r', rest, lost, hwords, hr', hlost⟩ := head_diffWords a' as bs
            (hcarry.trans_le hk)
          have hhalf : (r : Int) = b.toNat - a.toNat - 0 + wordBase * (1 - k) := by
            rw [hbase]
            omega
          have hrest := (Limbs.sub_cons_iff (show 0 < wordBase by decide) hhalf).mp
            (show _ ≡ (b.toNat + wordBase * wordsValue bs : Int) -
              (a.toNat + wordBase * wordsValue (a' :: as)) - 0 [ZMOD _] by rw [sub_zero]; exact h)
          rw [hwords, wordsValue_cons, wordsValue_cons, wordsValue_head_tail bs, List.length_cons,
            pow_succ'] at hrest
          simp only [Nat.cast_add, Nat.cast_mul] at hrest
          have hsecond : (r'.toNat : Int) ≡ (bs.headD 0).toNat - a'.toNat - (1 - k)
              [ZMOD wordBase] := by
            refine Limbs.modEq_head (Y := (wordsValue bs.tail - wordsValue as : Int))
              (hrest.trans ?_)
            rw [show ((bs.headD 0).toNat + wordBase * wordsValue bs.tail -
              (a'.toNat + wordBase * wordsValue as) - (1 - k) : Int) =
                (bs.headD 0).toNat - a'.toNat - (1 - k) +
                  wordBase * (wordsValue bs.tail - wordsValue as) by ring]
          obtain ⟨v, hv⟩ := Int.modEq_iff_dvd.mp (hr'.symm.trans hsecond)
          rw [hbase] at hv
          omega

theorem length_diffWords (as bs : List UInt32) (carry : UInt32) :
    (diffWords as bs carry).length = as.length := by
  induction as generalizing bs carry with
  | nil => rfl
  | cons a as ih =>
    cases bs with
    | cons b bs => rw [diffWords_cons, List.length_cons, ih, List.length_cons]
    | nil =>
      rw [diffWords]
      split_ifs <;> rw [List.length_cons, ih, List.length_cons]

/-- **The loop takes a smaller number off exactly if every borrow goes well.** -/
theorem wordsValue_diffWords_iff {as bs : List UInt32} (hle : wordsValue bs ≤ wordsValue as) :
    wordsValue (diffWords as bs 0) = wordsValue as - wordsValue bs ↔ BorrowsWell as bs 0 := by
  have hiff := diffWords_modEq_iff as bs toNat_zero_le
  have hlt := wordsValue_lt (diffWords as bs 0)
  have hlt' := wordsValue_lt as
  rw [length_diffWords] at hlt
  rw [UInt32.toNat_zero, Nat.cast_zero, sub_zero, ← Nat.cast_sub hle] at hiff
  rw [← hiff, ← Nat.cast_pow, Int.natCast_modEq_iff]
  exact ⟨fun h => congrArg (· % _) h, fun h => Nat.ModEq.eq_of_lt_of_lt h hlt (by omega)⟩

/-! ## 6. `BigInteger_Add` and `BigInteger_Sub` -/

/-- `BigInteger_Sub` for operands of one sign. -/
def bigIntegerSubAlike (old : Option OldResult) (a b : BigInteger) : BigInteger :=
  match bigIntegerUnsignedCompare a b with
  | .eq => bigIntegerZero old
  | .gt =>
    -- `Signed` comes with the copy of the first operand
    bigIntegerClearHighBits (diffWords a.pIntegerArray b.pIntegerArray 0)
      (if a.signed = -1 ∧ b.signed = -1 then -1 else a.signed)
  | .lt =>
    bigIntegerClearHighBits (diffWords b.pIntegerArray a.pIntegerArray 0)
      (if a.signed = 1 ∧ b.signed = 1 then -1 else b.signed)

/-- `BigInteger_Add` for operands of one sign. -/
def bigIntegerAddAlike (a b : BigInteger) : BigInteger :=
  bigIntegerClearHighBits
    (sumWords (arrayLengthOf (if b.integerLength < a.integerLength then a.integerLength + 1
      else b.integerLength + 1)) a.pIntegerArray b.pIntegerArray 0) a.signed

/-- `BigInteger_Add` -/
def bigIntegerAdd (old : Option OldResult) (a b : BigInteger) : BigInteger :=
  if bigIntegerUnsignedCompare a b = .eq ∧ a.signed ≠ b.signed then bigIntegerZero old
  else if a.signed = b.signed then bigIntegerAddAlike a b
  else if a.signed = 1 then bigIntegerSubAlike old a b.abs
  else bigIntegerSubAlike old b a.abs

/-- `BigInteger_Sub` -/
def bigIntegerSub (old : Option OldResult) (a b : BigInteger) : BigInteger :=
  if a.signed = b.signed then bigIntegerSubAlike old a b
  else if a.signed = 1 then bigIntegerAddAlike a b.abs
  else { bigIntegerAddAlike a.abs b with signed := -1 }

/-- A result is a number, in its canonical form. -/
structure BigInteger.Returns (r : BigInteger) (v : Int) : Prop where
  value : r.value = v
  canonical : r.Canonical

theorem returns_clearHighBits (ws : List UInt32) (signed : ℤˣ) (v : Int) :
    (bigIntegerClearHighBits ws signed).Returns v ↔ (signed : Int) * wordsValue ws = v := by
  obtain ⟨hmagnitude, hcanonical, hsigned⟩ := clearHighBits_spec ws signed
  have hvalue : (bigIntegerClearHighBits ws signed).value = (signed : Int) * wordsValue ws := by
    rw [BigInteger.value, hmagnitude, hsigned]
    split_ifs with hzero
    · rw [hzero, Nat.cast_zero, mul_zero, mul_zero]
    · rfl
  rw [← hvalue]
  exact ⟨fun h => h.value, fun h => ⟨h, hcanonical⟩⟩

theorem BigInteger.Returns.natCast {r : BigInteger} {n : Nat} (h : r.Returns n) :
    r.magnitude = n ∧ r.signed = 1 := by
  have hnonneg : 0 ≤ r.value := by
    rw [h.value]
    exact Int.natCast_nonneg n
  refine ⟨?_, (BigInteger.signed_of_nonneg hnonneg).elim id h.canonical.sign⟩
  rw [← BigInteger.natAbs_value, h.value, Int.natAbs_natCast]

/-- The result object, if there is one, does not have `Signed` -1. -/
def FreshSign (old : Option OldResult) : Prop := ∀ o, old = some o → o.signed = 1

theorem returns_zero_iff (old : Option OldResult) :
    (bigIntegerZero old).Returns 0 ↔ FreshSign old := by
  have hmagnitude : (bigIntegerZero old).magnitude = 0 := rfl
  have hsigned : signedBehindAlloc old 1 = 1 ↔ FreshSign old := by
    cases old with
    | none => exact iff_of_true rfl nofun
    | some o =>
      rw [signedBehindAlloc, if_neg (by omega)]
      exact ⟨fun h o' ho => Option.some_inj.mp ho ▸ h, fun h => h o rfl⟩
  rw [← hsigned]
  constructor
  · exact fun h => h.canonical.sign hmagnitude
  · intro h
    refine ⟨?_, ⟨.inl rfl, fun _ => h⟩⟩
    rw [BigInteger.value, hmagnitude, Nat.cast_zero, mul_zero]

/-- The words have room for the sum. -/
theorem wordsValue_addAlike (a b : BigInteger) :
    wordsValue (sumWords (arrayLengthOf (if b.integerLength < a.integerLength then
      a.integerLength + 1 else b.integerLength + 1)) a.pIntegerArray b.pIntegerArray 0) =
      a.magnitude + b.magnitude := by
  have ha := a.fits
  have hb := b.fits
  refine wordsValue_sumWords ?_
  · have hroom : ∀ m n, a.integerLength ≤ m → b.integerLength ≤ m → n = m + 1 →
        wordsValue a.pIntegerArray + wordsValue b.pIntegerArray < wordBase ^ arrayLengthOf n := by
      intro m n hm hm' hn
      have hamax : 256 ^ a.integerLength ≤ 256 ^ m := Nat.pow_le_pow_right (by decide) hm
      have hbmax : 256 ^ b.integerLength ≤ 256 ^ m := Nat.pow_le_pow_right (by decide) hm'
      have hwords : 256 ^ (m + 1) ≤ wordBase ^ arrayLengthOf n := by
        rw [wordBase_pow, arrayLengthOf]
        refine Nat.pow_le_pow_right (by decide) ?_
        split_ifs <;> omega
      rw [Nat.pow_succ] at hwords
      omega
    split_ifs with hlt
    · exact hroom _ _ (Nat.le_refl _) hlt.le rfl
    · exact hroom _ _ (Nat.le_of_not_lt hlt) (Nat.le_refl _) rfl

/-- **Sums of magnitudes are right.** -/
theorem returns_addAlike (a b : BigInteger) :
    (bigIntegerAddAlike a b).Returns (a.signed * (a.magnitude + b.magnitude)) := by
  rw [bigIntegerAddAlike, returns_clearHighBits, wordsValue_addAlike, Nat.cast_add]

theorem magnitude_addAlike (a b : BigInteger) :
    (bigIntegerAddAlike a b).magnitude = a.magnitude + b.magnitude := by
  rw [bigIntegerAddAlike, magnitude_clearHighBits, wordsValue_addAlike]

/-! ## 7. When they are right -/

/-- The smaller magnitude is taken off the larger one, and every borrow goes well. -/
structure Subtracts (larger smaller : BigInteger) : Prop where
  le : smaller.magnitude ≤ larger.magnitude
  borrows : BorrowsWell larger.pIntegerArray smaller.pIntegerArray 0

/-- **The differences of two operands of one sign that are right.** -/
def SubAlikeFits (old : Option OldResult) (a b : BigInteger) : Prop :=
  match bigIntegerUnsignedCompare a b with
  | .eq => FreshSign old
  | .gt => Subtracts a b
  | .lt => if a.signed = 1 then Subtracts b a else a.magnitude = b.magnitude

/-- The sums that are right: of operands of one sign, or the differences of their magnitudes. -/
def AddFits (old : Option OldResult) (a b : BigInteger) : Prop :=
  a.signed ≠ b.signed →
    match bigIntegerUnsignedCompare a b with
    | .eq => FreshSign old
    | .gt => Subtracts a b
    | .lt => Subtracts b a

/-- The differences that are right: of operands of one sign, or the sums of their magnitudes, but
for a zero that would have the sign of the first. -/
def SubFits (old : Option OldResult) (a b : BigInteger) : Prop :=
  if a.signed = b.signed then SubAlikeFits old a b
  else a.signed = -1 → ¬ (a.magnitude = 0 ∧ b.magnitude = 0)

/-- Equal magnitudes leave no borrow. -/
theorem borrowsWell_of_eq {as bs : List UInt32} (h : wordsValue as = wordsValue bs) :
    BorrowsWell as bs 0 := fun i _ hborrow =>
  absurd hborrow (Limbs.not_borrows_of_eq (by decide) (toNat_lt_wordBase as) (toNat_lt_wordBase bs)
    h i)

/-- **A smaller magnitude with more octets does not come out as what it should be taken off.** -/
theorem wordsValue_diffWords_ne {longer shorter : BigInteger}
    (hlen : shorter.integerLength < longer.integerLength)
    (hlt : longer.magnitude < shorter.magnitude) :
    wordsValue (diffWords longer.pIntegerArray shorter.pIntegerArray 0) ≠
      shorter.magnitude - longer.magnitude := by
  intro h
  have hcast : (wordsValue (diffWords longer.pIntegerArray shorter.pIntegerArray 0) : Int) =
      shorter.magnitude - longer.magnitude := by
    rw [h, Nat.cast_sub hlt.le]
  have hdvd := diffWords_not_mirrored longer.pIntegerArray shorter.pIntegerArray (hcast ▸ rfl)
  have hfits := shorter.fits
  have hoctets : 256 ^ (shorter.integerLength + 1) ≤ wordBase ^ longer.pIntegerArray.length := by
    rw [wordBase_pow, longer.arrayLength, arrayLengthOf]
    refine Nat.pow_le_pow_right (by decide) ?_
    split_ifs <;> omega
  rw [Nat.pow_succ] at hoctets
  have hsmall : 2 * (shorter.magnitude - longer.magnitude) <
      wordBase ^ longer.pIntegerArray.length := by
    change shorter.magnitude < _ at hfits
    omega
  have hnat : wordBase ^ longer.pIntegerArray.length ∣
      2 * (shorter.magnitude - longer.magnitude) := by
    rw [← Int.natCast_dvd_natCast]
    push_cast [hlt.le]
    exact hdvd
  have hzero := Nat.eq_zero_of_dvd_of_lt hnat hsmall
  omega

/-- The loop takes off what it should exactly if it takes the smaller from the larger. -/
theorem diff_eq_iff (larger smaller : BigInteger) :
    (wordsValue (diffWords larger.pIntegerArray smaller.pIntegerArray 0) : Int) =
      larger.magnitude - smaller.magnitude ↔ Subtracts larger smaller := by
  by_cases hle : smaller.magnitude ≤ larger.magnitude
  · have hiff := wordsValue_diffWords_iff hle
    rw [← Nat.cast_sub hle, Nat.cast_inj]
    exact hiff.trans ⟨fun h => ⟨hle, h⟩, fun h => h.borrows⟩
  · refine iff_of_false ?_ fun h => hle h.le
    omega

/-- If the longer one is taken off, only equal magnitudes come out right. -/
theorem diff_eq_swapped_iff {longer shorter : BigInteger}
    (hc : bigIntegerUnsignedCompare shorter longer = .lt) :
    (wordsValue (diffWords longer.pIntegerArray shorter.pIntegerArray 0) : Int) =
      shorter.magnitude - longer.magnitude ↔ shorter.magnitude = longer.magnitude := by
  constructor
  · intro h
    by_contra hne
    have hlt : longer.magnitude < shorter.magnitude := by omega
    have hgt : bigIntegerUnsignedCompare longer shorter = .gt := by
      rw [unsignedCompare_swap, hc]
      rfl
    refine wordsValue_diffWords_ne ((unsignedCompare_gt hgt).2 hlt) hlt ?_
    omega
  · intro h
    rw [(diff_eq_iff longer shorter).mpr ⟨h.le, borrowsWell_of_eq h.symm⟩, h]

/-- **A difference of operands of one sign is right exactly then.** -/
theorem returns_subAlike_iff (old : Option OldResult) {a b : BigInteger}
    (hsigned : a.signed = b.signed) :
    (bigIntegerSubAlike old a b).Returns (a.value - b.value) ↔ SubAlikeFits old a b := by
  have hvalue : a.value - b.value = (a.signed : Int) * (a.magnitude - b.magnitude) := by
    rw [BigInteger.value, BigInteger.value, hsigned]
    ring
  rw [bigIntegerSubAlike, SubAlikeFits, hvalue]
  cases hc : bigIntegerUnsignedCompare a b with
  | eq =>
    dsimp only
    rw [unsignedCompare_eq hc, sub_self, mul_zero]
    exact returns_zero_iff old
  | gt =>
    have hcopied : (if a.signed = -1 ∧ b.signed = -1 then -1 else a.signed) = a.signed := by
      split_ifs with h
      · exact h.1.symm
      · rfl
    dsimp only
    rw [hcopied, returns_clearHighBits, ← diff_eq_iff]
    exact mul_right_inj' a.signed.ne_zero
  | lt =>
    dsimp only
    rw [returns_clearHighBits]
    rcases Int.units_eq_one_or a.signed with ha | ha
    · rw [if_pos ⟨ha, hsigned ▸ ha⟩, if_pos ha, ← diff_eq_iff, ha, Units.val_neg, Units.val_one]
      constructor <;> intro h <;> linarith
    · have hne : a.signed ≠ 1 := ha ▸ by decide
      rw [if_neg fun h => hne h.1, if_neg hne, ← diff_eq_swapped_iff hc, ← hsigned]
      exact mul_right_inj' a.signed.ne_zero

theorem subtracts_abs {a b : BigInteger} : Subtracts a.abs b ↔ Subtracts a b :=
  ⟨fun h => ⟨h.le, h.borrows⟩, fun h => ⟨h.le, h.borrows⟩⟩

theorem subtracts_of_abs {a b : BigInteger} : Subtracts a b.abs ↔ Subtracts a b :=
  ⟨fun h => ⟨h.le, h.borrows⟩, fun h => ⟨h.le, h.borrows⟩⟩

theorem BigInteger.value_abs (a : BigInteger) : a.abs.value = a.magnitude := one_mul _

/-- **A sum is right exactly then.** -/
theorem returns_add_iff (old : Option OldResult) (a b : BigInteger) :
    (bigIntegerAdd old a b).Returns (a.value + b.value) ↔ AddFits old a b := by
  by_cases hsigned : a.signed = b.signed
  · have hvalue : a.value + b.value = (a.signed : Int) * (a.magnitude + b.magnitude) := by
      rw [BigInteger.value, BigInteger.value, hsigned]
      ring
    rw [bigIntegerAdd, if_neg fun h => h.2 hsigned, if_pos hsigned, hvalue]
    exact iff_of_true (returns_addAlike a b) fun h => absurd hsigned h
  · have hfits : AddFits old a b ↔ match bigIntegerUnsignedCompare a b with
        | .eq => FreshSign old
        | .gt => Subtracts a b
        | .lt => Subtracts b a := ⟨fun h => h hsigned, fun h _ => h⟩
    have hopposite := Int.units_ne_iff_eq_neg.mp hsigned
    have hvalue : a.value + b.value = (a.signed : Int) * (a.magnitude - b.magnitude) := by
      rw [BigInteger.value, BigInteger.value, hopposite, Units.val_neg]
      ring
    rw [hfits, bigIntegerAdd]
    by_cases heq : bigIntegerUnsignedCompare a b = .eq
    · rw [if_pos ⟨heq, hsigned⟩, heq, hvalue, unsignedCompare_eq heq, sub_self, mul_zero]
      exact returns_zero_iff old
    · rw [if_neg fun h => heq h.1, if_neg hsigned, hvalue]
      rcases Int.units_eq_one_or a.signed with ha | ha
      · have hsub : (a.signed : Int) * (a.magnitude - b.magnitude) = a.value - b.abs.value := by
          rw [BigInteger.value_abs, BigInteger.value, ha, Units.val_one, one_mul, one_mul]
        rw [if_pos ha, hsub, returns_subAlike_iff old (a := a) (b := b.abs) ha, SubAlikeFits,
          show bigIntegerUnsignedCompare a b.abs = bigIntegerUnsignedCompare a b from rfl, if_pos ha,
          subtracts_abs, subtracts_of_abs]
      · have hb : b.signed = 1 := by
          rw [ha] at hopposite
          exact (neg_inj.mp hopposite).symm
        have hsub : (a.signed : Int) * (a.magnitude - b.magnitude) = b.value - a.abs.value := by
          rw [BigInteger.value_abs, BigInteger.value, ha, hb, Units.val_neg, Units.val_one]
          ring
        rw [if_neg (ha ▸ by decide), hsub, returns_subAlike_iff old (a := b) (b := a.abs) hb,
          SubAlikeFits, show bigIntegerUnsignedCompare b a.abs = bigIntegerUnsignedCompare b a from rfl,
          if_pos hb, subtracts_abs, subtracts_of_abs, unsignedCompare_swap]
        cases bigIntegerUnsignedCompare a b <;> rfl

/-- **A difference is right exactly then.** -/
theorem returns_sub_iff (old : Option OldResult) (a b : BigInteger) :
    (bigIntegerSub old a b).Returns (a.value - b.value) ↔ SubFits old a b := by
  rw [bigIntegerSub, SubFits]
  by_cases hsigned : a.signed = b.signed
  · rw [if_pos hsigned, if_pos hsigned]
    exact returns_subAlike_iff old hsigned
  · have hopposite := Int.units_ne_iff_eq_neg.mp hsigned
    have hvalue : a.value - b.value = (a.signed : Int) * (a.magnitude + b.magnitude) := by
      rw [BigInteger.value, BigInteger.value, hopposite, Units.val_neg]
      ring
    rw [if_neg hsigned, if_neg hsigned, hvalue]
    rcases Int.units_eq_one_or a.signed with ha | ha
    · rw [if_pos ha]
      exact iff_of_true (returns_addAlike a b.abs) fun h => absurd (ha.symm.trans h) (by decide)
    · have hne : a.signed ≠ 1 := ha ▸ by decide
      have hsum := returns_addAlike a.abs b
      have hmagnitude := magnitude_addAlike a.abs b
      rw [if_neg hne, forall_prop_of_true ha, ha]
      constructor
      · rintro ⟨-, hcanonical⟩ ⟨hzero, hzero'⟩
        have hsign := hcanonical.sign (hmagnitude.trans (Nat.add_eq_zero_iff.mpr ⟨hzero, hzero'⟩))
        exact absurd (show (-1 : ℤˣ) = 1 from hsign) (by decide)
      · intro hpos
        refine ⟨?_, ⟨hsum.canonical.length, fun hzero => ?_⟩⟩
        · change ((-1 : ℤˣ) : Int) * ((bigIntegerAddAlike a.abs b).magnitude : Int) = _
          rw [hmagnitude, Nat.cast_add]
          rfl
        · exact absurd (Nat.add_eq_zero_iff.mp (hmagnitude.symm.trans hzero)) hpos

/-- **`BigInteger_Add` and `BigInteger_Sub` return the sum and the difference in canonical form
exactly if no borrow goes wrong, the comparison finds the larger operand, two negative operands have
the larger one in front, and no sign is left over.** -/
theorem bigInteger_iff (old : Option OldResult) (a b : BigInteger) :
    ((bigIntegerAdd old a b).Returns (a.value + b.value) ↔ AddFits old a b) ∧
      ((bigIntegerSub old a b).Returns (a.value - b.value) ↔ SubFits old a b) :=
  ⟨returns_add_iff old a b, returns_sub_iff old a b⟩

/-- 2 ^ 64, and 1. -/
def Example.powerOfTwo : BigInteger where
  pIntegerArray := [0, 0, 1]
  integerLength := 9
  signed := 1
  pos := by decide
  arrayLength := rfl
  fits := by decide

def Example.oneBigInteger : BigInteger where
  pIntegerArray := [1]
  integerLength := 1
  signed := 1
  pos := by decide
  arrayLength := rfl
  fits := by decide

/-- **The borrow out of a zero word is one too small.** -/
theorem not_returns_sub_powerOfTwo :
    ¬ (bigIntegerSub none Example.powerOfTwo Example.oneBigInteger).Returns
      (Example.powerOfTwo.value - Example.oneBigInteger.value) := by
  intro h
  have hwords : diffWords [0, 0, 1] [1] 0 = [0xffffffff, 0xfffffffe, 0] := by decide
  have hvalue : (bigIntegerClearHighBits (diffWords [0, 0, 1] [1] 0) 1).value =
      2 ^ 64 - 1 := h.value
  rw [((returns_clearHighBits _ 1 _).mpr rfl).value, hwords] at hvalue
  exact absurd hvalue (by decide +kernel)

end Mt7601.Crypt
