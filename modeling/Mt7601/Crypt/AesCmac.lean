/-
# AES-CMAC

`AES_CMAC_GenerateSubKey` and `AES_CMAC` of `common/crypt_aes.c`, against CMAC over the cipher of
FIPS 197. The shift of 16 octets with the carries between them is a shift of 128 bits
(`beVal_shift`), so the two subkeys are the doublings in the field (`bits_aesCmacShift`); and the loop
with its three lengths of a last block is that of the code (`aesCmac_eq`).
-/
import Mt7601.Crypt.AesKeys
import Mt7601.Lib.Cmac

namespace Mt7601.Crypt

/-! ## 1. The subkeys -/

/-- An octet with what comes in from the next one. -/
theorem toNat_shiftOctet (b next : UInt8) :
    ((b <<< 1) ||| (next >>> 7)).toNat = 2 * b.toNat % 256 + next.toNat / 128 := by
  have hnext := next.toNat_lt
  have hleft : (b <<< 1).toNat = 2 ^ 1 * (b.toNat % 128) := by
    rw [UInt8.toNat_shiftLeft, show (1 : UInt8).toNat % 8 = 1 from rfl, Nat.shiftLeft_eq]
    omega
  have hright : (next >>> 7).toNat = next.toNat / 128 := by
    rw [UInt8.toNat_shiftRight, show (7 : UInt8).toNat % 8 = 7 from rfl, Nat.shiftRight_eq_div_pow]
  rw [UInt8.toNat_or, hleft, hright, ← Nat.two_pow_add_eq_or_of_lt (by omega)]
  omega

/-- The octets one bit to the left. -/
def shiftOctets (l : List UInt8) : List UInt8 :=
  List.zipWith (fun b next : UInt8 => (b <<< 1) ||| (next >>> 7)) l (l.tail ++ [0])

/-- **The number doubled**, without what falls out. -/
theorem beVal_shiftOctets (l : List UInt8) :
    beVal (shiftOctets l) = 2 * beVal l % 256 ^ l.length := by
  induction l with
  | nil => rfl
  | cons b m ih =>
    cases m with
    | nil =>
      have hb := toNat_shiftOctet b 0
      simp only [shiftOctets, List.tail_cons, List.nil_append, List.zipWith_cons_cons,
        List.zipWith_nil_left, beVal, List.length_nil, List.length_cons, hb, UInt8.toNat_zero]
      omega
    | cons c m =>
      have hlow := beVal_lt m
      have hcons : shiftOctets (b :: c :: m) =
          ((b <<< 1) ||| (c >>> 7)) :: shiftOctets (c :: m) := rfl
      have hlen : (shiftOctets (c :: m)).length = m.length + 1 := by simp [shiftOctets]
      rw [hcons, beVal, ih, hlen, toNat_shiftOctet]
      simp only [beVal, List.length_cons, pow_succ]
      generalize 256 ^ m.length = p at *
      generalize beVal m = v at *
      obtain ⟨q, r, hc, hr⟩ : ∃ q r, c.toNat = 128 * q + r ∧ r < 128 :=
        ⟨c.toNat / 128, c.toNat % 128, by omega, by omega⟩
      obtain ⟨t, s, hb, hs⟩ : ∃ t s, 2 * b.toNat = 256 * t + s ∧ s ≤ 254 :=
        ⟨2 * b.toNat / 256, 2 * b.toNat % 256, by omega, by omega⟩
      have hq : q ≤ 1 := by
        have hlt := c.toNat_lt
        omega
      have hrp : r * p ≤ 127 * p := Nat.mul_le_mul_right p (by omega)
      have hsq : (s + q) * (p * 256) ≤ 255 * (p * 256) := Nat.mul_le_mul_right _ (by omega)
      have hrest : 2 * (r * p + v) < p * 256 := by omega
      have hinner : 2 * (c.toNat * p + v) % (p * 256) = 2 * (r * p + v) := by
        have hsplit : 2 * (c.toNat * p + v) = 2 * (r * p + v) + p * 256 * q := by
          rw [hc]
          ring
        rw [hsplit, Nat.add_mul_mod_self_left, Nat.mod_eq_of_lt hrest]
      have houter : 2 * (b.toNat * (p * 256) + (c.toNat * p + v)) % (p * 256 * 256) =
          (s + q) * (p * 256) + 2 * (r * p + v) := by
        have hsplit : 2 * (b.toNat * (p * 256) + (c.toNat * p + v)) =
            (s + q) * (p * 256) + 2 * (r * p + v) + p * 256 * 256 * t := by
          rw [hc]
          linear_combination (p * 256) * hb
        rw [hsplit, Nat.add_mul_mod_self_left, Nat.mod_eq_of_lt (by omega)]
      rw [hinner, houter, show 2 * b.toNat % 256 = s by omega, show c.toNat / 128 = q by omega]

theorem exists_toList_eq_cons : ∀ k : Octets 16, ∃ a l, k.toList = a :: l ∧ k.get 0 = a ∧ l.length = 15
  | ⟨a :: l, hlen⟩ => ⟨a, l, rfl, rfl, Nat.succ_injective hlen⟩

/-- The highest bit of a block is that of its first octet. -/
theorem msb_bits (k : Octets 16) : (Cmac.bits k).msb = decide (k.get 0 &&& 0x80 > 0) := by
  obtain ⟨a, l, hk, hget, hl⟩ := exists_toList_eq_cons k
  have hlow := beVal_lt l
  have hoctet : (a &&& 0x80 > 0) ↔ 128 ≤ a.toNat := by
    have hall : ∀ n < 256, (0 < n &&& 0x80) ↔ 128 ≤ n := by decide +kernel
    rw [gt_iff_lt, UInt8.lt_iff_toNat_lt, UInt8.toNat_and]
    exact hall _ a.toNat_lt
  rw [BitVec.msb_eq_decide, Cmac.toNat_bits, hk, beVal, hget, decide_eq_decide, hoctet, hl]
  rw [hl] at hlow
  omega

theorem xorBlock_eq_add {l : List UInt8} (hl : l.length = 16) (x : Octets 16) :
    xorBlock l x = Ccm.add (.ofList 16 l) x := by
  rw [xorBlock, Ccm.add, Octets.toList_ofList, List.takeD_eq_take 0 (Nat.le_of_eq hl.symm),
    List.take_of_length_le (Nat.le_of_eq hl)]

/-- **Steps 2 and 3 double a block in the field.** -/
theorem bits_aesCmacShift (k : Octets 16) :
    Cmac.bits (aesCmacShift k) = Cmac.double (Cmac.bits k) := by
  set shifted : Octets 16 := .ofList 16 (shiftOctets k.toList) with hshifted
  have hlen : (shiftOctets k.toList).length = 16 := by simp [shiftOctets]
  have hlist : shifted.toList = shiftOctets k.toList := by
    rw [hshifted, Octets.toList_ofList, List.takeD_eq_take 0 (Nat.le_of_eq hlen.symm),
      List.take_of_length_le (Nat.le_of_eq hlen)]
  have hbits : Cmac.bits shifted = Cmac.bits k <<< 1 := by
    refine BitVec.eq_of_toNat_eq ?_
    rw [BitVec.toNat_shiftLeft, Cmac.toNat_bits, Cmac.toNat_bits, hlist, beVal_shiftOctets,
      k.toList_length, Nat.shiftLeft_eq, Nat.mul_comm]
    rfl
  have hconst : Cmac.bits (xorBlock constRb shifted) = Cmac.bits k <<< 1 ^^^ 0x87 := by
    have hrb : Cmac.bits (.ofList 16 constRb) = 0x87 := by decide
    rw [xorBlock_eq_add rfl, Cmac.bits_add, hbits, hrb, BitVec.xor_comm]
  have hshift : aesCmacShift k = if k.get 0 &&& 0x80 > 0 then xorBlock constRb shifted else shifted :=
    rfl
  rw [hshift, Cmac.double, msb_bits k]
  by_cases hmsb : k.get 0 &&& 0x80 > 0
  · rw [if_pos hmsb, if_pos (decide_eq_true hmsb), hconst]
  · rw [if_neg hmsb, if_neg (fun h => hmsb (of_decide_eq_true h)), hbits]

/-- **`AES_CMAC_GenerateSubKey`** -/
theorem masks_aesCmacGenerateSubKey (key : Octets 16) :
    Cmac.Masks (Fips197.cipher key.toList) (aesCmacGenerateSubKey key).1
      (aesCmacGenerateSubKey key).2 where
  first := by
    rw [← rtAesEncrypt_eq_cipher, ← Cmac.poly_double, ← bits_aesCmacShift]
    rfl
  second := by
    rw [← Cmac.poly_double, ← bits_aesCmacShift]
    rfl

/-! ## 2. The code -/

/-- `AES_CMAC` with the checks it begins with; nothing is written where they fail. -/
def aesCmacText (plainText key : List UInt8) (macTextLength : Nat) : Option (Octets 16) :=
  if macTextLength < 16 then none
  else if key.length ≠ 16 then none
  else some (aesCmac (.ofList 16 key) plainText)

theorem add_add_eq (a b c : Octets 16) : Ccm.add a (Ccm.add b c) = Ccm.add (Ccm.add a c) b := by
  refine Cmac.bits_injective ?_
  rw [Cmac.bits_add, Cmac.bits_add, Cmac.bits_add, Cmac.bits_add]
  ac_rfl

theorem blocks_sub_one (message : List UInt8) :
    Cmac.blocks message - 1 = (message.length - 1) / 16 := by
  rw [Cmac.blocks]
  omega

/-- The loop is the chain of every block but the last. -/
theorem rounds_aesCmac (key : Octets 16) (plainText : List UInt8) :
    Cipher.rounds (fun i x => rtAesEncrypt key (xorBlock (Mem.read plainText (16 * i) 16) x))
        (.zero 16) (List.range ((plainText.length - 1) / 16)) =
      Cmac.chained (Fips197.cipher key.toList) plainText := by
  have hround : ∀ (x : Octets 16) (i : Nat),
      rtAesEncrypt key (xorBlock (Mem.read plainText (16 * i) 16) x) =
        Fips197.cipher key.toList (Ccm.add x (Ccm.blockAt plainText i)) := by
    intro x i
    rw [xorBlock_eq_add (Mem.length_read _ _ _), rtAesEncrypt_eq_cipher, Ccm.add_comm]
    rfl
  rw [Cmac.chained, blocks_sub_one, Cipher.rounds]
  simp only [hround]

/-- **`AES_CMAC`** under the subkeys it has generated. -/
theorem aesCmac_eq (key : Octets 16) (plainText : List UInt8) :
    aesCmac key plainText = Cmac.code (Fips197.cipher key.toList) (aesCmacGenerateSubKey key).1
      (aesCmacGenerateSubKey key).2 plainText := by
  set whole := (plainText.length - 1) / 16 with hwhole
  have hlast : (plainText.drop (16 * whole)).length = plainText.length - 16 * whole :=
    List.length_drop
  have hmask : ∀ (l : List UInt8) (x k : Octets 16), l.length = 16 →
      xorBlock l (xorBlock x.toList k) = Ccm.add (Ccm.add (.ofList 16 l) k) x := by
    intro l x k hl
    rw [xorBlock_eq_add hl, xorBlock_eq_add x.toList_length, Octets.ofList_toList, add_add_eq]
  have hempty : plainText ≠ [] ↔ 0 < plainText.length := List.length_pos_iff.symm
  rw [aesCmac, Cmac.code, Cmac.lastBlock, blocks_sub_one, ← hwhole]
  rw [rounds_aesCmac, rtAesEncrypt_eq_cipher, hlast]
  by_cases hfull : plainText.length - 16 * whole = 16
  · rw [if_pos hfull, if_pos (by rw [hempty]; omega), hmask _ _ _ (hlast.trans hfull)]
  · rw [if_neg hfull, if_neg (by rw [hempty]; omega), hmask _ _ _ (List.takeD_length _ _ _)]
    have hpad : Octets.ofList 16 ((plainText.drop (16 * whole) ++ [0x80]).takeD 16 0) =
        .ofList 16 (plainText.drop (16 * whole) ++ [0x80]) := by
      refine List.Vector.toList_injective ?_
      rw [Octets.toList_ofList, Octets.toList_ofList,
        List.takeD_eq_take 0 (Nat.le_of_eq (List.takeD_length _ _ _).symm),
        List.take_of_length_le (Nat.le_of_eq (List.takeD_length _ _ _))]
    rw [hpad]

/-- **AES-CMAC**: the subkeys are the doublings of the cipher of zero, and the text that is returned
is the code of the message, the only one. -/
theorem aesCmacText_spec (key : Octets 16) (plainText : List UInt8) {macTextLength : Nat}
    (hroom : 16 ≤ macTextLength) :
    Cmac.Masks (Fips197.cipher key.toList) (aesCmacGenerateSubKey key).1
        (aesCmacGenerateSubKey key).2 ∧
      ∃ macText, aesCmacText plainText key.toList macTextLength = some macText ∧
        ∀ t, Cmac.IsCode (Fips197.cipher key.toList) plainText t ↔ t = macText := by
  have hmasks := masks_aesCmacGenerateSubKey key
  have hcode : Cmac.IsCode (Fips197.cipher key.toList) plainText (aesCmac key plainText) :=
    ⟨_, _, hmasks, aesCmac_eq key plainText⟩
  refine ⟨hmasks, aesCmac key plainText, ?_, fun t => ⟨fun h => h.unique hcode, ?_⟩⟩
  · rw [aesCmacText, if_neg (Nat.not_lt.mpr hroom), if_neg (not_not_intro key.toList_length),
      Octets.ofList_toList]
  · rintro rfl
    exact hcode

namespace Example

/-- The code of the empty message under the key of zeroes. -/
theorem aesCmacText_empty :
    Cmac.Masks (Fips197.cipher (Octets.zero 16).toList) (aesCmacGenerateSubKey (.zero 16)).1
        (aesCmacGenerateSubKey (.zero 16)).2 ∧
      ∃ macText, aesCmacText [] (Octets.zero 16).toList 16 = some macText ∧
        ∀ t, Cmac.IsCode (Fips197.cipher (Octets.zero 16).toList) [] t ↔ t = macText :=
  aesCmacText_spec (.zero 16) [] (Nat.le_refl 16)

end Example

end Mt7601.Crypt
