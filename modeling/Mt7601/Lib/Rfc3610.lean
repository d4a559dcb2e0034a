/-
# CCM as RFC 3610 formats it

The blocks that CCM is made of, over any block cipher `E`: the first block of the chain with the
flags, the nonce and the length of the message, the associated data behind its length in one of three
forms, and the counter blocks. A nonce of `15 - L` octets leaves `L` of them for a number.
-/
import Mathlib.Data.List.GetD
import Mt7601.Lib.Ccm

namespace Rfc3610

/-! ## 1. Numbers -/

/-- The last `k` octets of a number, the highest first. -/
def number : Nat → Nat → List UInt8
  | 0, _ => []
  | k + 1, n => UInt8.ofNat (n / 256 ^ k) :: number k n

@[simp] theorem length_number (k n : Nat) : (number k n).length = k := by
  induction k with
  | zero => rfl
  | succ k ih => rw [number, List.length_cons, ih]

theorem getD_number {k j : Nat} (hj : j < k) (n : Nat) :
    (number k n).getD j 0 = UInt8.ofNat (n / 256 ^ (k - 1 - j)) := by
  induction k generalizing j with
  | zero => exact absurd hj (Nat.not_lt_zero j)
  | succ k ih =>
    rw [number]
    cases j with
    | zero => rfl
    | succ j =>
      rw [List.getD_cons_succ, ih (Nat.lt_of_succ_lt_succ hj)]
      congr 3
      omega

/-! ## 2. Blocks -/

/-- A block of flags, the nonce and a number in what is left. -/
def block (flags : UInt8) (nonce : List UInt8) (n : Nat) : Octets 16 :=
  .ofList 16 (flags :: nonce ++ number (15 - nonce.length) n)

/-- `A_i` -/
def counterBlock (nonce : List UInt8) (i : Nat) : Octets 16 :=
  block (UInt8.ofNat (15 - nonce.length - 1)) nonce i

/-- `B_0`: whether there is associated data, the length of the tag, the octets of the length. -/
def firstBlock (aadLength tagLength : Nat) (nonce : List UInt8) (length : Nat) : Octets 16 :=
  block (UInt8.ofNat (64 * (if 0 < aadLength then 1 else 0) + 8 * ((tagLength - 2) / 2) +
    (15 - nonce.length - 1))) nonce length

/-- The length of the associated data. -/
def aadLead (aadLength : Nat) : List UInt8 :=
  if aadLength < 2 ^ 16 - 2 ^ 8 then number 2 aadLength
  else if aadLength < 2 ^ 32 then [0xff, 0xfe] ++ number 4 aadLength
  else [0xff, 0xff] ++ number 8 aadLength

/-- What stands in the chain for the associated data. -/
def aadText (aad : List UInt8) : List UInt8 := if aad = [] then [] else aadLead aad.length ++ aad

/-! ## 3. The mode -/

/-- The chain over the first block, the associated data and the message. -/
def mac (E : Octets 16 → Octets 16) (tagLength : Nat) (nonce aad message : List UInt8) : Octets 16 :=
  Ccm.chain E
    (Ccm.chain E (E (firstBlock aad.length tagLength nonce message.length)) (aadText aad)) message

/-- CCM under a cipher: the message is under the cipher of `A_1`, `A_2`, …, the tag under that of
`A_0`. -/
def mode (E : Octets 16 → Octets 16) (tagLength : Nat) (nonce aad : List UInt8) : Ccm.Mode where
  pads := fun i => E (counterBlock nonce (i + 1))
  tagPad := E (counterBlock nonce 0)
  mac := mac E tagLength nonce aad

/-- The octets of a block. -/
theorem getD_block {flags : UInt8} {nonce : List UInt8} (hnonce : nonce.length ≤ 15) (n : Nat)
    {k : Nat} (hk : k < 16) :
    (block flags nonce n).toList.getD k 0 =
      if k ≤ nonce.length then (flags :: nonce).getD k 0 else UInt8.ofNat (n / 256 ^ (15 - k)) := by
  have hlen : (flags :: nonce ++ number (15 - nonce.length) n).length = 16 := by
    rw [List.length_append, List.length_cons, length_number]
    omega
  have hlist : (block flags nonce n).toList = flags :: nonce ++ number (15 - nonce.length) n := by
    rw [block, Octets.toList_ofList, List.takeD_eq_take 0 (Nat.le_of_eq hlen.symm),
      List.take_of_length_le (Nat.le_of_eq hlen)]
  rw [hlist]
  split_ifs with h
  · exact List.getD_append _ _ _ _ (by rw [List.length_cons]; omega)
  · have hright : nonce.length + 1 ≤ k := by omega
    rw [List.getD_append_right _ _ _ _ (by rw [List.length_cons]; exact hright), List.length_cons,
      getD_number (by omega)]
    congr 3
    omega

end Rfc3610
