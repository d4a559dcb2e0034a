/-
# The blocks of AES-CCM

The counter blocks and the associated data of `AES_CCM_MAC`, `AES_CCM_Encrypt` and `AES_CCM_Decrypt`
against RFC 3610. The first block of the chain is right for every length that leaves room for it
(`ccmControlBlock_eq`). But `Block_CTR[15]` is the whole counter: block 256 is that of the tag again
(`ccmCounter_wraps`). And from `0xFF00` octets on, the two octets in front of the length of the
associated data are left zero. Both functions are those of the RFC exactly below these two lengths
(`ccmMeets_iff`).
-/
import Mt7601.Crypt.AesCcm
import Mt7601.Crypt.AesKeys
import Mt7601.Lib.Rfc3610

namespace Mt7601.Crypt

/-! ## 1. The counter -/

/-- `Block_CTR` for the tag, and after `i` passes for block `i` of the text. -/
def ccmCounter (nonce : List UInt8) (i : Nat) : Octets 16 :=
  (ccmBlockCtr nonce).set 15 ((ccmBlockCtr nonce).get 15 + UInt8.ofNat i)

theorem getD_toList {n : Nat} (v : Octets n) (i : Fin n) : v.toList.getD i 0 = v.get i := by
  have hi : (i : Nat) < v.toList.length := i.isLt.trans_eq v.toList_length.symm
  exact List.getD_eq_getElem _ 0 hi

theorem get_ofList {n : Nat} (l : List UInt8) (i : Fin n) : (Octets.ofList n l).get i = l.getD i 0 := by
  have hread := Mem.getD_read l 0 i.isLt
  rw [Nat.zero_add] at hread
  rw [← getD_toList, Octets.toList_ofList]
  exact hread

theorem getD_eq_zero_of_le {l : List UInt8} {k : Nat} (h : l.length ≤ k) : l.getD k 0 = 0 :=
  List.getD_eq_default _ _ h

/-- The octets of a block of the RFC. -/
theorem get_block {flags : UInt8} {nonce : List UInt8} (hnonce : nonce.length ≤ 13) (n : Nat)
    (k : Fin 16) : (Rfc3610.block flags nonce n).get k =
      if (k : Nat) ≤ nonce.length then (flags :: nonce).getD k 0
      else UInt8.ofNat (n / 256 ^ (15 - (k : Nat))) := by
  rw [← getD_toList, Rfc3610.getD_block (by omega) n k.isLt]

theorem get_ccmCounter_last {nonce : List UInt8} (hnonce : nonce.length ≤ 13) (i : Nat) :
    (ccmCounter nonce i).get 15 = UInt8.ofNat i := by
  have hzero : (ccmBlockCtr nonce).get 15 = 0 := by
    rw [ccmBlockCtr, get_ofList]
    refine getD_eq_zero_of_le ?_
    rw [List.length_cons]
    exact (by omega : nonce.length + 1 ≤ 15)
  rw [ccmCounter, List.Vector.get_set_same, hzero, UInt8.zero_add]

/-- **The counter is that of the RFC** as long as one octet holds it. -/
theorem ccmCounter_eq {nonce : List UInt8} (hnonce : nonce.length ≤ 13) {i : Nat} (hi : i < 256) :
    ccmCounter nonce i = Rfc3610.counterBlock nonce i := by
  refine List.Vector.ext fun k => ?_
  rw [Rfc3610.counterBlock, get_block hnonce]
  by_cases hk : k = 15
  · subst hk
    rw [get_ccmCounter_last hnonce, if_neg (by exact Nat.not_le.mpr (by omega : nonce.length < 15))]
    exact congrArg UInt8.ofNat (Nat.div_one i).symm
  · have hlast : (k : Nat) < 15 := by
      have hne : (k : Nat) ≠ 15 := fun h => hk (Fin.ext h)
      omega
    have hdiv : i / 256 ^ (15 - (k : Nat)) = 0 := by
      refine Nat.div_eq_of_lt (hi.trans_le ?_)
      exact Nat.le_self_pow (by omega) 256
    rw [ccmCounter, List.Vector.get_set_of_ne (Ne.symm hk), ccmBlockCtr, get_ofList, hdiv]
    split_ifs with hle
    · rfl
    · exact getD_eq_zero_of_le (by rw [List.length_cons]; omega)

/-- **Block 256 is block 0.** -/
theorem ccmCounter_wraps (nonce : List UInt8) : ccmCounter nonce 256 = ccmCounter nonce 0 := rfl

theorem ccmCounter_injective {nonce : List UInt8} (hnonce : nonce.length ≤ 13) {i j : Nat}
    (hi : i < 256) (hj : j < 256) (h : ccmCounter nonce i = ccmCounter nonce j) : i = j := by
  have hlast := congrArg (fun b : Octets 16 => (b.get 15).toNat) h
  simp only [get_ccmCounter_last hnonce, UInt8.toNat_ofNat'] at hlast
  omega

/-! ## 2. The first block -/

theorem get_set_ite (p : Prop) [Decidable p] (v : Octets 16) (i k : Fin 16) (b : UInt8) :
    (if p then v.set i b else v).get k = if p ∧ i = k then b else v.get k := by
  by_cases hp : p
  · by_cases hik : i = k
    · subst hik
      rw [if_pos hp, if_pos ⟨hp, rfl⟩, List.Vector.get_set_same]
    · rw [if_pos hp, if_neg fun h => hik h.2, List.Vector.get_set_of_ne hik]
  · rw [if_neg hp, if_neg fun h => hp h.1]

/-- The flags. -/
theorem ccmFlags_eq (adata : Prop) [Decidable adata] {macLength n : Nat}
    (hmac : macLength ∈ [4, 6, 8, 10, 12, 14, 16]) (hn : n ∈ [7, 8, 9, 10, 11, 12, 13]) :
    (if adata then (0x40 : UInt8) else 0) ||| UInt8.ofNat (((macLength - 2) >>> 1) <<< 3) |||
        UInt8.ofNat (15 - n - 1) =
      UInt8.ofNat (64 * (if adata then 1 else 0) + 8 * ((macLength - 2) / 2) + (15 - n - 1)) := by
  have hall : ∀ macLength ∈ [4, 6, 8, 10, 12, 14, 16], ∀ n ∈ [7, 8, 9, 10, 11, 12, 13],
      ∀ a : Bool, (if a then (0x40 : UInt8) else 0) |||
          UInt8.ofNat (((macLength - 2) >>> 1) <<< 3) ||| UInt8.ofNat (15 - n - 1) =
        UInt8.ofNat (64 * (if a then 1 else 0) + 8 * ((macLength - 2) / 2) + (15 - n - 1)) := by
    decide +kernel
  have hat := hall macLength hmac n hn (decide adata)
  simpa using hat

/-- **The control information is `B_0`** where the length has room. -/
theorem ccmControlBlock_eq {payloadLength macLength : Nat} {nonce : List UInt8} (aadLength : Nat)
    (hnonce : 7 ≤ nonce.length ∧ nonce.length ≤ 13)
    (hmac : macLength ∈ [4, 6, 8, 10, 12, 14, 16]) (hmax : payloadLength < 2 ^ 32) :
    ccmControlBlock payloadLength aadLength macLength nonce =
      Rfc3610.firstBlock aadLength macLength nonce payloadLength := by
  have hmem : nonce.length ∈ [7, 8, 9, 10, 11, 12, 13] := by
    simp only [List.mem_cons, List.not_mem_nil, or_false]
    omega
  refine List.Vector.ext fun k => ?_
  rw [Rfc3610.firstBlock, get_block hnonce.2, ← ccmFlags_eq (0 < aadLength) hmac hmem,
    ccmControlBlock]
  set flags := (if aadLength > 0 then (0x40 : UInt8) else 0) |||
    UInt8.ofNat (((macLength - 2) >>> 1) <<< 3) ||| UInt8.ofNat (15 - nonce.length - 1)
  have hback : ∀ n : Nat, nonce.length < n → (flags :: nonce).getD n 0 = 0 := fun n hn =>
    getD_eq_zero_of_le (by rw [List.length_cons]; omega)
  have hfront : ∀ j : Fin 16, (j : Nat) < 12 →
      (flags :: nonce).getD j 0 = if (j : Nat) ≤ nonce.length then (flags :: nonce).getD j 0
        else UInt8.ofNat (payloadLength / 256 ^ (15 - (j : Nat))) := by
    intro j hj
    have hdiv : payloadLength / 256 ^ (15 - (j : Nat)) = 0 := by
      refine Nat.div_eq_of_lt (hmax.trans_le ?_)
      calc 2 ^ 32 = 256 ^ 4 := by decide
        _ ≤ 256 ^ (15 - (j : Nat)) := Nat.pow_le_pow_right (by decide) (by omega)
    split_ifs with hle
    · rfl
    · rw [hback _ (by omega), hdiv]
      rfl
  by_cases h15 : k = 15
  · subst h15
    rw [List.Vector.get_set_same, if_neg (show ¬ ((15 : Fin 16) : Nat) ≤ nonce.length from
      Nat.not_le.mpr (show nonce.length < 15 by omega))]
    exact congrArg UInt8.ofNat (Nat.div_one _).symm
  rw [List.Vector.get_set_of_ne (Ne.symm h15)]
  by_cases h14 : k = 14
  · subst h14
    rw [List.Vector.get_set_same, if_neg (show ¬ ((14 : Fin 16) : Nat) ≤ nonce.length from
      Nat.not_le.mpr (show nonce.length < 14 by omega))]
    rfl
  rw [List.Vector.get_set_of_ne (Ne.symm h14), get_set_ite, get_set_ite, get_ofList]
  by_cases h13 : k = 13
  · subst h13
    rcases Nat.lt_or_ge nonce.length 13 with hlt | hge
    · have hnot : ¬ ((13 : Fin 16) : Nat) ≤ nonce.length := Nat.not_le.mpr hlt
      rw [if_pos ⟨hlt, rfl⟩, if_neg hnot]
      rfl
    · have hle : ((13 : Fin 16) : Nat) ≤ nonce.length := hge
      rw [if_neg fun h => Nat.not_lt.mpr hge h.1, if_neg fun h => absurd h.2 (by decide),
        if_pos hle]
  rw [if_neg fun h => h13 h.2.symm]
  by_cases h12 : k = 12
  · subst h12
    rcases Nat.lt_or_ge nonce.length 12 with hlt | hge
    · have hnot : ¬ ((12 : Fin 16) : Nat) ≤ nonce.length := Nat.not_le.mpr hlt
      rw [if_pos ⟨hlt, rfl⟩, if_neg hnot]
      rfl
    · have hle : ((12 : Fin 16) : Nat) ≤ nonce.length := hge
      rw [if_neg fun h => Nat.not_lt.mpr hge h.1, if_pos hle]
  rw [if_neg fun h => h12 h.2.symm]
  refine hfront k ?_
  have hne15 : (k : Nat) ≠ 15 := fun h => h15 (Fin.ext h)
  have hne14 : (k : Nat) ≠ 14 := fun h => h14 (Fin.ext h)
  have hne13 : (k : Nat) ≠ 13 := fun h => h13 (Fin.ext h)
  have hne12 : (k : Nat) ≠ 12 := fun h => h12 (Fin.ext h)
  omega

/-! ## 3. The associated data -/

/-- The length in front of the associated data, below `0xFF00`. -/
theorem ccmAadLead_eq {n : Nat} (hpos : 0 < n) (hlt : n < 0xFF00) :
    ccmAadLead n = Rfc3610.aadLead n := by
  rw [ccmAadLead, if_pos ⟨hpos, hlt⟩, Rfc3610.aadLead, if_pos (show n < 2 ^ 16 - 2 ^ 8 from hlt)]
  simp [Rfc3610.number]

/-- From there on its two octets in front are missing. -/
theorem ccmAadLead_ne {n : Nat} (hge : 0xFF00 ≤ n) : ccmAadLead n ≠ Rfc3610.aadLead n := by
  intro h
  rw [ccmAadLead, if_neg fun hn => Nat.not_lt.mpr hge hn.2, Rfc3610.aadLead,
    if_neg (show ¬ n < 2 ^ 16 - 2 ^ 8 from Nat.not_lt.mpr hge)] at h
  split_ifs at h <;> exact absurd (List.cons.inj h).1 (by decide)

/-- **The loop over the associated data** is the chain over its text. -/
theorem ccmAadLoop_eq (key blockMac : Octets 16) {aad : List UInt8} (hlt : aad.length < 0xFF00) :
    ccmAadLoop key blockMac aad = Ccm.chain (rtAesEncrypt key) blockMac (Rfc3610.aadText aad) := by
  rcases aad with _ | ⟨a, rest⟩
  · rfl
  set aad := a :: rest with haad
  have hpos : 0 < aad.length := by simp [haad]
  have htext : Rfc3610.aadText aad = ccmAadLead aad.length ++ aad := by
    rw [Rfc3610.aadText, if_neg (List.length_pos_iff.mp hpos), ccmAadLead_eq hpos hlt]
  have hlead : (ccmAadLead aad.length).length = 2 := by
    rw [ccmAadLead, if_pos ⟨hpos, hlt⟩]
    rfl
  rw [ccmAadLoop, if_neg hpos.ne', htext]
  dsimp only
  rw [hlead]
  rcases Nat.lt_or_ge 14 aad.length with hlong | hshort
  · -- the first block is full
    have hcopy : min (min aad.length 16) (16 - 2) = 14 := by omega
    have hfull : (ccmAadLead aad.length ++ aad.take 14).length = 16 := by
      rw [List.length_append, hlead, List.length_take]
      omega
    have hsplit : ccmAadLead aad.length ++ aad =
        (ccmAadLead aad.length ++ aad.take 14) ++ aad.drop 14 := by
      rw [List.append_assoc, List.take_append_drop]
    rw [hcopy, hsplit, Ccm.chain_append _ _ hfull]
  · have hcopy : min (min aad.length 16) (16 - 2) = aad.length := by omega
    have hone : Ccm.chain (rtAesEncrypt key) blockMac (ccmAadLead aad.length ++ aad) =
        rtAesEncrypt key (Ccm.add (.ofList 16 (ccmAadLead aad.length ++ aad)) blockMac) :=
      Ccm.chain_short _ _ (by rw [List.length_append]; omega)
        (by rw [List.length_append, hlead]; omega)
    rw [hcopy, List.take_length, List.drop_length, hone]
    rfl

/-- **`AES_CCM_MAC`** is that of the RFC where its two lengths are formatted as there. -/
theorem aesCcmMac_eq (key : Octets 16) {payload nonce aad : List UInt8} {macLength : Nat}
    (hnonce : 7 ≤ nonce.length ∧ nonce.length ≤ 13)
    (hmac : macLength ∈ [4, 6, 8, 10, 12, 14, 16]) (hmax : payload.length < 2 ^ 32)
    (hlt : aad.length < 0xFF00) :
    aesCcmMac key payload nonce aad macLength =
      Rfc3610.mac (rtAesEncrypt key) macLength nonce aad payload := by
  rw [aesCcmMac, Rfc3610.mac, ccmControlBlock_eq _ hnonce hmac hmax, ccmAadLoop_eq _ _ hlt]

/-! ## 4. The two functions -/

/-- `AES_CCM_Encrypt` and `AES_CCM_Decrypt` are those of the RFC at a text of `length` octets: the
counter blocks are pairwise distinct and the `A_i`, the chain begins as it does there, and what they
write, wherever the two texts lie, is under the tag and the stream of the RFC. -/
structure CcmMeets (key : Octets 16) (nonce aad : List UInt8) (macLength length : Nat) : Prop where
  counters : ∀ i ≤ (length + 15) / 16, ccmCounter nonce i = Rfc3610.counterBlock nonce i
  distinct : ∀ i ≤ (length + 15) / 16, ∀ j < i, ccmCounter nonce j ≠ ccmCounter nonce i
  control : ccmControlBlock length aad.length macLength nonce =
    Rfc3610.firstBlock aad.length macLength nonce length
  lead : 0 < aad.length → ccmAadLead aad.length = Rfc3610.aadLead aad.length
  encrypted : ∀ (mem : List UInt8) (plainText cipherText room : Nat),
    cipherText ≤ plainText ∨ plainText + length ≤ cipherText → cipherText ≤ mem.length →
    length + macLength ≤ room →
    aesCcmEncrypt mem plainText length key.toList nonce aad macLength cipherText room =
      .ok (Mem.write mem cipherText
        ((Rfc3610.mode (Fips197.cipher key.toList) macLength nonce aad).sealed macLength
          (Mem.read mem plainText length)), length + macLength)
  decrypted : ∀ (mem : List UInt8) (cipherText plainText room : Nat),
    plainText ≤ cipherText ∨ cipherText + (length + macLength) ≤ plainText →
    plainText ≤ mem.length → length ≤ room →
    aesCcmDecrypt mem cipherText (length + macLength) key.toList nonce aad macLength plainText room =
      match (Rfc3610.mode (Fips197.cipher key.toList) macLength nonce aad).opened macLength
        (Mem.read mem cipherText (length + macLength)) with
      | some l => .ok (Mem.write mem plainText l, l.length)
      | none => .error (-5)

section

variable {key : Octets 16} {nonce aad : List UInt8} {macLength length : Nat}

/-- The counter as long as the text needs it. -/
theorem ccmCounter_eq_of_le (hnonce : 7 ≤ nonce.length ∧ nonce.length ≤ 13) (hle : length ≤ 4080)
    {i : Nat} (hi : i ≤ (length + 15) / 16) :
    ccmCounter nonce i = Rfc3610.counterBlock nonce i :=
  ccmCounter_eq hnonce.2 (by omega)

theorem aesCcmMode_pads (hnonce : 7 ≤ nonce.length ∧ nonce.length ≤ 13) (hle : length ≤ 4080)
    {i : Nat} (hi : 16 * i < length) :
    (aesCcmMode key nonce aad macLength).pads i =
      (Rfc3610.mode (Fips197.cipher key.toList) macLength nonce aad).pads i := by
  have hcounter := ccmCounter_eq_of_le hnonce hle (show i + 1 ≤ (length + 15) / 16 by omega)
  calc (aesCcmMode key nonce aad macLength).pads i = rtAesEncrypt key (ccmCounter nonce (i + 1)) := rfl
    _ = _ := by
      rw [hcounter, rtAesEncrypt_eq_cipher]
      rfl

theorem aesCcmMode_tagPad (hnonce : 7 ≤ nonce.length ∧ nonce.length ≤ 13) :
    (aesCcmMode key nonce aad macLength).tagPad =
      (Rfc3610.mode (Fips197.cipher key.toList) macLength nonce aad).tagPad := by
  have hzero : ccmBlockCtr nonce = ccmCounter nonce 0 := by
    refine List.Vector.ext fun k => ?_
    by_cases hk : k = 15
    · subst hk
      rw [ccmCounter, List.Vector.get_set_same]
      exact (UInt8.add_zero _).symm
    · rw [ccmCounter, List.Vector.get_set_of_ne (Ne.symm hk)]
  rw [aesCcmMode, Rfc3610.mode, ← rtAesEncrypt_eq_cipher, hzero,
    ccmCounter_eq hnonce.2 (by decide)]

theorem aesCcmMode_mac (hnonce : 7 ≤ nonce.length ∧ nonce.length ≤ 13)
    (hmac : macLength ∈ [4, 6, 8, 10, 12, 14, 16]) (hlt : aad.length < 0xFF00)
    (hle : length ≤ 4080) {l : List UInt8} (hl : l.length = length) :
    (aesCcmMode key nonce aad macLength).mac l =
      (Rfc3610.mode (Fips197.cipher key.toList) macLength nonce aad).mac l := by
  have hcipher : rtAesEncrypt key = Fips197.cipher key.toList :=
    funext (rtAesEncrypt_eq_cipher key)
  have hmac' := @aesCcmMac_eq key l nonce aad macLength hnonce hmac (by omega) hlt
  rwa [hcipher] at hmac'

/-- **What the two functions seal** is what the RFC seals. -/
theorem sealed_aesCcmMode (hnonce : 7 ≤ nonce.length ∧ nonce.length ≤ 13)
    (hmac : macLength ∈ [4, 6, 8, 10, 12, 14, 16]) (hlt : aad.length < 0xFF00)
    (hle : length ≤ 4080) {l : List UInt8} (hl : l.length = length) :
    (aesCcmMode key nonce aad macLength).sealed macLength l =
      (Rfc3610.mode (Fips197.cipher key.toList) macLength nonce aad).sealed macLength l := by
  have hstream : Ccm.stream (aesCcmMode key nonce aad macLength).pads l =
      Ccm.stream (Rfc3610.mode (Fips197.cipher key.toList) macLength nonce aad).pads l :=
    Ccm.stream_congr fun i hi => aesCcmMode_pads hnonce hle (hl ▸ hi)
  rw [Ccm.Mode.sealed, Ccm.Mode.sealed, hstream, Ccm.Mode.tag, Ccm.Mode.tag,
    aesCcmMode_tagPad hnonce, aesCcmMode_mac hnonce hmac hlt hle hl]

/-- And what they open. -/
theorem opened_aesCcmMode (hnonce : 7 ≤ nonce.length ∧ nonce.length ≤ 13)
    (hmac : macLength ∈ [4, 6, 8, 10, 12, 14, 16]) (hlt : aad.length < 0xFF00)
    (hle : length ≤ 4080) {c : List UInt8} (hc : c.length = length + macLength) :
    (aesCcmMode key nonce aad macLength).opened macLength c =
      (Rfc3610.mode (Fips197.cipher key.toList) macLength nonce aad).opened macLength c := by
  have hlen : c.length - macLength = length := by omega
  refine Ccm.Mode.opened_congr (fun i hi => ?_) (aesCcmMode_tagPad hnonce) fun l hl => ?_
  · exact aesCcmMode_pads hnonce hle (hlen ▸ hi)
  · exact aesCcmMode_mac hnonce hmac hlt hle (hl.trans hlen)

/-- **CCM is that of the RFC** up to 255 blocks of text and below `0xFF00` octets of associated
data, and at no other length. -/
theorem ccmMeets_iff (hnonce : 7 ≤ nonce.length ∧ nonce.length ≤ 13)
    (hmac : macLength ∈ [4, 6, 8, 10, 12, 14, 16]) (hmax : length + macLength < 2 ^ 32) :
    CcmMeets key nonce aad macLength length ↔ length ≤ 4080 ∧ aad.length < 0xFF00 := by
  constructor
  · intro h
    constructor
    · by_contra hlong
      exact h.distinct 256 (by omega) 0 (by decide) (ccmCounter_wraps nonce).symm
    · by_contra hlong
      exact ccmAadLead_ne (Nat.le_of_not_lt hlong) (h.lead (by omega))
  · rintro ⟨hle, hlt⟩
    refine
      { counters := fun i hi => ccmCounter_eq_of_le hnonce hle hi
        distinct := ?_
        control := ccmControlBlock_eq _ hnonce hmac (by omega)
        lead := fun hpos => ccmAadLead_eq hpos hlt
        encrypted := ?_
        decrypted := ?_ }
    · intro i hi j hj heq
      exact hj.ne (ccmCounter_injective hnonce.2 (by omega) (by omega) heq)
    · intro mem plainText cipherText room hapart hcipher hroom
      rw [aesCcmEncrypt_eq hnonce hmac hapart hcipher hroom,
        sealed_aesCcmMode hnonce hmac hlt hle (Mem.length_read _ _ _)]
    · intro mem cipherText plainText room hapart hplain hroom
      have hopened : aesCcmDecrypt mem cipherText (length + macLength) key.toList nonce aad macLength
          plainText room = _ :=
        aesCcmDecrypt_eq hnonce hmac hapart hplain (Nat.le_add_left _ _) hmax (by omega)
      rw [opened_aesCcmMode hnonce hmac hlt hle (Mem.length_read _ _ _)] at hopened
      exact hopened

end

namespace Example

/-- The longest text at which the counter suffices. -/
theorem ccmMeets_longest :
    CcmMeets (.zero 16) (List.replicate 13 0) [] 8 4080 :=
  (ccmMeets_iff (by decide) (by decide) (by decide)).2 (by decide)

/-- **One octet more**, and its block is under the pad of the tag. -/
theorem not_ccmMeets : ¬ CcmMeets (.zero 16) (List.replicate 13 0) [] 8 4081 :=
  fun h => h.distinct 256 (by decide) 0 (by decide) (ccmCounter_wraps _).symm

end Example

end Mt7601.Crypt
