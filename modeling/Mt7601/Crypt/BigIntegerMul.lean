/-
# Products of big integers

`BigInteger_Mul` adds up rows of words, the carry out of each row going on as far as it has to. It is
right for all operands (`returns_mul`).
-/
import Mt7601.Crypt.BigInteger

namespace Mt7601.Crypt

/-! ## 1. A row -/

/-- A carry into the words of the result. -/
def addCarry : List UInt32 → UInt64 → List UInt32
  | [], _ => []
  | r :: rs, carry =>
    if carry = 0 then r :: rs
    else
      let sum := r.toUInt64 + carry
      (sum &&& 0xffffffff).toUInt32 :: addCarry rs (sum >>> 32)

/-- The words of the second operand times one of the first, added to the result from there on. -/
def mulRow (first : UInt32) : List UInt32 → List UInt32 → UInt64 → List UInt32
  | [], rs, carry => addCarry rs carry
  | _ :: _, [], _ => []
  | b :: bs, r :: rs, carry =>
    let sum := r.toUInt64 + b.toUInt64 * first.toUInt64 + carry
    (sum &&& 0xffffffff).toUInt32 :: mulRow first bs rs (sum >>> 32)

/-- A sum of 64 bits as a word and a carry. -/
theorem toNat_split (sum : UInt64) :
    (sum &&& 0xffffffff).toUInt32.toNat + wordBase * (sum >>> 32).toNat = sum.toNat ∧
      (sum >>> 32).toNat < wordBase := by
  rw [toNat_low, toNat_high]
  exact ⟨Nat.mod_add_div _ _, Nat.div_lt_of_lt_mul sum.toNat_lt⟩

/-- The greatest product of two words leaves room for two more. -/
theorem toNat_mac {r a b : UInt32} {carry : UInt64} (hcarry : carry.toNat < wordBase) :
    (r.toUInt64 + b.toUInt64 * a.toUInt64 + carry).toNat =
      r.toNat + b.toNat * a.toNat + carry.toNat := by
  have hr := r.toNat_lt
  have ha : a.toNat ≤ 2 ^ 32 - 1 := Nat.le_sub_one_of_lt a.toNat_lt
  have hb : b.toNat ≤ 2 ^ 32 - 1 := Nat.le_sub_one_of_lt b.toNat_lt
  have hmul : b.toNat * a.toNat ≤ (2 ^ 32 - 1) * (2 ^ 32 - 1) := Nat.mul_le_mul hb ha
  rw [UInt64.toNat_add, UInt64.toNat_add, UInt64.toNat_mul, UInt32.toNat_toUInt64,
    UInt32.toNat_toUInt64, UInt32.toNat_toUInt64]
  have hbase : wordBase = 4294967296 := rfl
  generalize b.toNat * a.toNat = p at *
  omega

theorem length_addCarry (rs : List UInt32) (carry : UInt64) :
    (addCarry rs carry).length = rs.length := by
  induction rs generalizing carry with
  | nil => rfl
  | cons r rs ih =>
    rw [addCarry]
    split_ifs
    · rfl
    · rw [List.length_cons, ih, List.length_cons]

theorem length_mulRow (first : UInt32) {bs rs : List UInt32} (carry : UInt64)
    (h : bs.length ≤ rs.length) : (mulRow first bs rs carry).length = rs.length := by
  induction bs generalizing rs carry with
  | nil => exact length_addCarry rs carry
  | cons b bs ih =>
    cases rs with
    | nil => exact absurd h (Nat.not_succ_le_zero _)
    | cons r rs =>
      rw [mulRow, List.length_cons, ih _ (Nat.le_of_succ_le_succ h), List.length_cons]

/-- A first word and what is behind it. -/
theorem modEq_cons {w : UInt32} {ws : List UInt32} {x y n : Nat}
    (hw : w.toNat + wordBase * y = x) {z : Nat} (hws : wordsValue ws ≡ z + y [MOD wordBase ^ n]) :
    wordsValue (w :: ws) ≡ x + wordBase * z [MOD wordBase ^ (n + 1)] := by
  have hmul := hws.mul_left' wordBase
  rw [← pow_succ'] at hmul
  rw [wordsValue_cons, ← hw, Nat.add_assoc, ← Nat.mul_add, Nat.add_comm y z]
  exact hmul.add_left _

theorem wordsValue_addCarry (rs : List UInt32) {carry : UInt64} (hcarry : carry.toNat < wordBase) :
    wordsValue (addCarry rs carry) ≡ wordsValue rs + carry.toNat [MOD wordBase ^ rs.length] := by
  induction rs generalizing carry with
  | nil => exact Nat.modEq_one
  | cons r rs ih =>
    rw [addCarry]
    split_ifs with hzero
    · rw [hzero]
      exact Nat.ModEq.refl _
    · obtain ⟨hsplit, hnext⟩ := toNat_split (r.toUInt64 + carry)
      have hsum : (r.toUInt64 + carry).toNat = r.toNat + carry.toNat := by
        have hr := r.toNat_lt
        have hbase : wordBase = 4294967296 := rfl
        rw [UInt64.toNat_add, UInt32.toNat_toUInt64]
        omega
      have hcons := modEq_cons (hsplit.trans hsum) (ih hnext)
      rw [List.length_cons, wordsValue_cons r rs,
        show r.toNat + wordBase * wordsValue rs + carry.toNat =
          r.toNat + carry.toNat + wordBase * wordsValue rs by ring]
      exact hcons

/-- **A row is added.** -/
theorem wordsValue_mulRow (first : UInt32) {bs rs : List UInt32} {carry : UInt64}
    (h : bs.length ≤ rs.length) (hcarry : carry.toNat < wordBase) :
    wordsValue (mulRow first bs rs carry) ≡
      wordsValue rs + first.toNat * wordsValue bs + carry.toNat [MOD wordBase ^ rs.length] := by
  induction bs generalizing rs carry with
  | nil =>
    rw [mulRow, wordsValue_nil, Nat.mul_zero, Nat.add_zero]
    exact wordsValue_addCarry rs hcarry
  | cons b bs ih =>
    cases rs with
    | nil => exact absurd h (Nat.not_succ_le_zero _)
    | cons r rs =>
      obtain ⟨hsplit, hnext⟩ := toNat_split (r.toUInt64 + b.toUInt64 * first.toUInt64 + carry)
      have hrow := ih (Nat.le_of_succ_le_succ h) hnext
      have hcons := modEq_cons (hsplit.trans (toNat_mac hcarry)) hrow
      rw [mulRow, List.length_cons, wordsValue_cons r rs, wordsValue_cons b bs,
        show r.toNat + wordBase * wordsValue rs + first.toNat * (b.toNat + wordBase * wordsValue bs) +
          carry.toNat = r.toNat + b.toNat * first.toNat + carry.toNat +
            wordBase * (wordsValue rs + first.toNat * wordsValue bs) by ring]
      exact hcons

/-! ## 2. `BigInteger_Mul` -/

/-- The loop over the first operand; a row works on the result from its place on. -/
def mulWords : List UInt32 → List UInt32 → List UInt32 → List UInt32
  | [], _, rs => rs
  | a :: as, bs, rs =>
    match if a = 0 then rs else mulRow a bs rs 0 with
    | [] => []
    | r :: rs => r :: mulWords as bs rs

/-- `BigInteger_Mul` -/
def bigIntegerMul (a b : BigInteger) : BigInteger :=
  let signed := a.signed * b.signed
  if (a.integerLength = 1 ∧ a.pIntegerArray.headD 0 = 0) ∨
      (b.integerLength = 1 ∧ b.pIntegerArray.headD 0 = 0) then
    bigIntegerClearHighBits [0] signed
  else if a.integerLength = 1 ∧ a.pIntegerArray.headD 0 = 1 then
    bigIntegerClearHighBits b.pIntegerArray signed
  else if b.integerLength = 1 ∧ b.pIntegerArray.headD 0 = 1 then
    bigIntegerClearHighBits a.pIntegerArray signed
  else
    bigIntegerClearHighBits (mulWords a.pIntegerArray b.pIntegerArray
      (List.replicate (arrayLengthOf (a.integerLength + b.integerLength)) 0)) signed

theorem wordsValue_replicate_zero (n : Nat) : wordsValue (List.replicate n 0) = 0 := by
  induction n with
  | zero => rfl
  | succ n ih => rw [List.replicate_succ, wordsValue_cons, ih, UInt32.toNat_zero, Nat.mul_zero]

theorem length_mulWords {as bs rs : List UInt32} (h : as.length + bs.length ≤ rs.length + 1) :
    (mulWords as bs rs).length = rs.length := by
  induction as generalizing rs with
  | nil => rfl
  | cons a as ih =>
    rw [List.length_cons] at h
    have hlen : (if a = 0 then rs else mulRow a bs rs 0).length = rs.length := by
      split_ifs
      · rfl
      · exact length_mulRow a 0 (by omega)
    rw [mulWords]
    generalize (if a = 0 then rs else mulRow a bs rs 0) = row at *
    cases row with
    | nil => exact hlen
    | cons r row =>
      rw [List.length_cons] at hlen
      dsimp only
      rw [List.length_cons, ih (by omega), hlen]

/-- **The rows add up to the product.** -/
theorem wordsValue_mulWords {as bs rs : List UInt32} (h : as.length + bs.length ≤ rs.length + 1) :
    wordsValue (mulWords as bs rs) ≡
      wordsValue rs + wordsValue as * wordsValue bs [MOD wordBase ^ rs.length] := by
  induction as generalizing rs with
  | nil =>
    rw [mulWords, wordsValue_nil, Nat.zero_mul, Nat.add_zero]
  | cons a as ih =>
    rw [List.length_cons] at h
    have hroom : bs.length ≤ rs.length := by omega
    have hrow : wordsValue (if a = 0 then rs else mulRow a bs rs 0) ≡
        wordsValue rs + a.toNat * wordsValue bs [MOD wordBase ^ rs.length] := by
      split_ifs with hzero
      · rw [hzero, UInt32.toNat_zero, Nat.zero_mul, Nat.add_zero]
      · exact wordsValue_mulRow a hroom (by decide)
    have hlen : (if a = 0 then rs else mulRow a bs rs 0).length = rs.length := by
      split_ifs
      · rfl
      · exact length_mulRow a 0 hroom
    rw [mulWords]
    generalize (if a = 0 then rs else mulRow a bs rs 0) = row at *
    cases row with
    | nil =>
      rw [← hlen, List.length_nil, pow_zero]
      exact Nat.modEq_one
    | cons r row =>
      rw [List.length_cons] at hlen
      have hrest : wordsValue (mulWords as bs row) ≡ wordsValue row + wordsValue as * wordsValue bs + 0
          [MOD wordBase ^ row.length] := ih (by omega)
      have hcons := modEq_cons (w := r) rfl hrest
      have hsum := hrow.add_right (wordBase * (wordsValue as * wordsValue bs))
      rw [wordsValue_cons r row] at hsum
      rw [← hlen] at hsum ⊢
      dsimp only
      refine hcons.trans ?_
      rw [wordsValue_cons a as, show wordsValue rs + (a.toNat + wordBase * wordsValue as) *
        wordsValue bs = wordsValue rs + a.toNat * wordsValue bs +
          wordBase * (wordsValue as * wordsValue bs) by ring,
        show r.toNat + wordBase * 0 + wordBase * (wordsValue row + wordsValue as * wordsValue bs) =
          r.toNat + wordBase * wordsValue row + wordBase * (wordsValue as * wordsValue bs) by ring]
      exact hsum

/-- A number whose length is one octet. -/
theorem magnitude_of_length_one {a : BigInteger} (h : a.integerLength = 1) :
    a.magnitude = (a.pIntegerArray.headD 0).toNat := by
  have hlen : a.pIntegerArray.length = 1 := a.arrayLength.trans (by rw [h]; rfl)
  obtain ⟨w, hw⟩ := List.length_eq_one_iff.mp hlen
  rw [BigInteger.magnitude, hw, wordsValue_cons, wordsValue_nil, Nat.mul_zero, Nat.add_zero]
  rfl

theorem magnitude_mul_lt (a b : BigInteger) :
    a.magnitude * b.magnitude < 256 ^ (a.integerLength + b.integerLength) := by
  rw [pow_add]
  exact Nat.mul_lt_mul_of_lt_of_lt a.fits b.fits

/-- **The product**, in canonical form. -/
theorem returns_mul (a b : BigInteger) : (bigIntegerMul a b).Returns (a.value * b.value) := by
  have hvalue : a.value * b.value =
      ((a.signed * b.signed : ℤˣ) : Int) * ((a.magnitude * b.magnitude : Nat) : Int) := by
    rw [BigInteger.value, BigInteger.value, Units.val_mul, Nat.cast_mul]
    ring
  rw [bigIntegerMul, hvalue]
  split_ifs with hzero hfirst hsecond
  · rw [returns_clearHighBits]
    have hprod : a.magnitude * b.magnitude = 0 := by
      rcases hzero with ⟨hlen, hword⟩ | ⟨hlen, hword⟩
      · rw [magnitude_of_length_one hlen, hword, UInt32.toNat_zero, Nat.zero_mul]
      · rw [magnitude_of_length_one hlen, hword, UInt32.toNat_zero, Nat.mul_zero]
    rw [hprod]
    rfl
  · rw [returns_clearHighBits, magnitude_of_length_one hfirst.1, hfirst.2, UInt32.toNat_one,
      Nat.one_mul]
    rfl
  · rw [returns_clearHighBits, magnitude_of_length_one hsecond.1, hsecond.2, UInt32.toNat_one,
      Nat.mul_one]
    rfl
  · set n := arrayLengthOf (a.integerLength + b.integerLength) with hn
    have hroom : a.pIntegerArray.length + b.pIntegerArray.length ≤
        (List.replicate n (0 : UInt32)).length + 1 := by
      rw [List.length_replicate, a.arrayLength, b.arrayLength, hn, arrayLengthOf, arrayLengthOf,
        arrayLengthOf]
      have ha := a.pos
      have hb := b.pos
      split_ifs <;> omega
    have hrows := wordsValue_mulWords hroom
    rw [wordsValue_replicate_zero, Nat.zero_add, List.length_replicate] at hrows
    have hfits : a.magnitude * b.magnitude < wordBase ^ n := by
      refine (magnitude_mul_lt a b).trans_le ?_
      rw [wordBase_pow, hn, arrayLengthOf]
      refine Nat.pow_le_pow_right (by decide) ?_
      split_ifs <;> omega
    have hlt := wordsValue_lt (mulWords a.pIntegerArray b.pIntegerArray (List.replicate n 0))
    rw [length_mulWords hroom, List.length_replicate] at hlt
    rw [returns_clearHighBits, Nat.ModEq.eq_of_lt_of_lt hrows hlt hfits]
    rfl

end Mt7601.Crypt
