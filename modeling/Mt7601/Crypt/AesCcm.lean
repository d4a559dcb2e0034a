/-
# AES-CCM

`AES_CCM_MAC`, `AES_CCM_Encrypt` and `AES_CCM_Decrypt` of `common/crypt_aes.c`. They work on memory,
octet by octet, and the text may be moved towards the front while it is deciphered, so the loops are
stated on a memory and the offsets in it; `ctrLoop_eq` says what a pass over the text leaves there,
in front of its place or behind all of it.
The two functions then seal and open in one mode (`aesCcmEncrypt_eq`, `aesCcmDecrypt_eq`).

The counter is one octet: behind 255 blocks it begins again at zero, with the pad of the tag.
-/
import Mt7601.Crypt.Aes
import Mt7601.Lib.Ccm

namespace Mt7601.Crypt

/-! ## 1. The functions -/

/-- A difference of two `UINT`. -/
def uintSub (a b : Nat) : Nat := (a + 2 ^ 32 - b) % 2 ^ 32

theorem uintSub_eq {a b : Nat} (hle : b ≤ a) (hmax : a < 2 ^ 32) : uintSub a b = a - b := by
  rw [uintSub]
  omega

/-- `Block` of the control information: flags, nonce and, in what the nonce leaves, the length. -/
def ccmControlBlock (payloadLength aadLength macLength : Nat) (nonce : List UInt8) : Octets 16 :=
  let flags := (if aadLength > 0 then (0x40 : UInt8) else 0) |||
    UInt8.ofNat (((macLength - 2) >>> 1) <<< 3) ||| UInt8.ofNat (15 - nonce.length - 1)
  let block : Octets 16 := .ofList 16 (flags :: nonce)
  let block := if nonce.length < 12 then block.set 12 (UInt8.ofNat (payloadLength / 2 ^ 24))
    else block
  let block := if nonce.length < 13 then block.set 13 (UInt8.ofNat (payloadLength / 2 ^ 16))
    else block
  (block.set 14 (UInt8.ofNat (payloadLength / 2 ^ 8))).set 15 (UInt8.ofNat payloadLength)

/-- What stands in front of the associated data. -/
def ccmAadLead (aadLength : Nat) : List UInt8 :=
  if 0 < aadLength ∧ aadLength < 0xFF00 then
    [UInt8.ofNat (aadLength / 2 ^ 8), UInt8.ofNat aadLength]
  else
    [0, 0, UInt8.ofNat (aadLength / 2 ^ 24), UInt8.ofNat (aadLength / 2 ^ 16),
      UInt8.ofNat (aadLength / 2 ^ 8), UInt8.ofNat aadLength]

/-- The loop over the associated data. Its first block has the length in front; from the second on
`Block_Index` is zero and the passes are those over the payload. -/
def ccmAadLoop (key blockMac : Octets 16) (aad : List UInt8) : Octets 16 :=
  if aad.length = 0 then blockMac
  else
    let lead := ccmAadLead aad.length
    let copyLength := min (min aad.length 16) (16 - lead.length)
    let block : Octets 16 := .ofList 16 (lead ++ aad.take copyLength)
    Ccm.chain (rtAesEncrypt key) (rtAesEncrypt key (Ccm.add block blockMac)) (aad.drop copyLength)

/-- `AES_CCM_MAC`: `Block_MAC` at its end, of which `MACText` takes the first `MACLength` octets. -/
def aesCcmMac (key : Octets 16) (payload nonce aad : List UInt8) (macLength : Nat) : Octets 16 :=
  let block := ccmControlBlock payload.length aad.length macLength nonce
  Ccm.chain (rtAesEncrypt key) (ccmAadLoop key (rtAesEncrypt key block) aad) payload

/-- `Block_CTR` as it is first formatted. -/
def ccmBlockCtr (nonce : List UInt8) : Octets 16 :=
  .ofList 16 (UInt8.ofNat (15 - nonce.length - 1) :: nonce)

/-- The innermost loop: `copyLength` octets from `src`, added to the pad, to `dst`. -/
def copyPad (pad : Octets 16) (dst src copyLength : Nat) (mem : List UInt8) : List UInt8 :=
  Cipher.rounds
    (fun i mem => Mem.write mem (dst + i) [mem.getD (src + i) 0 ^^^ pad.toList.getD i 0]) mem
    (List.range copyLength)

/-- A pass of the loop over the text of `length` octets: `Block_CTR[15]` goes up by one, and one
block is done. -/
def ctrRound (key : Octets 16) (dst src length : Nat) (i : Nat) (s : Octets 16 × List UInt8) :
    Octets 16 × List UInt8 :=
  let blockCtr := s.1.set 15 (s.1.get 15 + 1)
  (blockCtr, copyPad (rtAesEncrypt key blockCtr) (dst + 16 * i) (src + 16 * i)
    (min (length - 16 * i) 16) s.2)

def ctrLoop (key blockCtr : Octets 16) (dst src length : Nat) (mem : List UInt8) : List UInt8 :=
  (Cipher.rounds (ctrRound key dst src length) (blockCtr, mem)
    (List.range ((length + 15) / 16))).2

/-- The checks `AES_CCM_Encrypt` and `AES_CCM_Decrypt` begin with. -/
def ccmCheck (key nonce : List UInt8) (macLength : Nat) : Option Int :=
  if key.length ≠ 16 then some (-1)
  else if nonce.length < 7 ∨ nonce.length > 13 then some (-2)
  else if macLength ∉ [4, 6, 8, 10, 12, 14, 16] then some (-3)
  else none

/-- `AES_CCM_Encrypt`; `plainText` and `cipherText` are offsets into the memory. -/
def aesCcmEncrypt (mem : List UInt8) (plainText plainTextLength : Nat) (key nonce aad : List UInt8)
    (macLength cipherText cipherTextLength : Nat) : Except Int (List UInt8 × Nat) :=
  match ccmCheck key nonce macLength with
  | some code => .error code
  | none =>
    if cipherTextLength < plainTextLength + macLength then .error (-4)
    else
      let key := Octets.ofList 16 key
      let blockCtr := ccmBlockCtr nonce
      let blockMac :=
        aesCcmMac key (Mem.read mem plainText plainTextLength) nonce aad macLength
      let blockMac := Ccm.add blockMac (rtAesEncrypt key blockCtr)
      let mem := ctrLoop key blockCtr cipherText plainText plainTextLength mem
      .ok (Mem.write mem (cipherText + plainTextLength) (blockMac.toList.take macLength),
        plainTextLength + macLength)

/-- `AES_CCM_Decrypt` -/
def aesCcmDecrypt (mem : List UInt8) (cipherText cipherTextLength : Nat)
    (key nonce aad : List UInt8) (macLength plainText plainTextLength : Nat) :
    Except Int (List UInt8 × Nat) :=
  match ccmCheck key nonce macLength with
  | some code => .error code
  | none =>
    let length := uintSub cipherTextLength macLength
    if plainTextLength < length then .error (-4)
    else
      let key := Octets.ofList 16 key
      let blockCtr := ccmBlockCtr nonce
      let macFromCipher := List.zipWith (· ^^^ ·) (Mem.read mem (cipherText + length) macLength)
        (rtAesEncrypt key blockCtr).toList
      let mem := ctrLoop key blockCtr plainText cipherText length mem
      let blockMac := aesCcmMac key (Mem.read mem plainText length) nonce aad macLength
      if macFromCipher ≠ blockMac.toList.take macLength then .error (-5)
      else .ok (mem, length)

/-! ## 2. The loop over the text -/

/-- The pads of a text. -/
def ccmPads (key blockCtr : Octets 16) (i : Nat) : Octets 16 :=
  rtAesEncrypt key (blockCtr.set 15 (blockCtr.get 15 + UInt8.ofNat (i + 1)))

section

variable {pads : Nat → Octets 16} {mem : List UInt8} {dst src : Nat}

/-- The memory once `n` octets of the text at `src` have been done. -/
def streamed (pads : Nat → Octets 16) (mem : List UInt8) (dst src n : Nat) : List UInt8 :=
  Mem.write mem dst (Ccm.stream pads (Mem.read mem src n))

theorem streamed_zero (hdst : dst ≤ mem.length) : streamed pads mem dst src 0 = mem := by
  have hread : Mem.read mem src 0 = [] := List.length_eq_zero_iff.1 (Mem.length_read _ _ _)
  rw [streamed, hread]
  exact Mem.write_nil hdst

/-- One octet more: it is read where it was, since what has been written lies in front of it, or
what is written lies behind the text. -/
theorem streamed_succ {n : Nat} (hapart : dst ≤ src ∨ src + (n + 1) ≤ dst) :
    Mem.write (streamed pads mem dst src n) (dst + n)
        [(streamed pads mem dst src n).getD (src + n) 0 ^^^ Ccm.octetAt pads n] =
      streamed pads mem dst src (n + 1) := by
  have hlen : (Ccm.stream pads (Mem.read mem src n)).length = n := by simp
  have hread : (streamed pads mem dst src n).getD (src + n) 0 = mem.getD (src + n) 0 := by
    rcases hapart with hle | hge
    · exact Mem.getD_write_of_le (by omega)
    · exact Mem.getD_write_of_lt (by omega)
  have hone : Mem.read mem src (n + 1) = Mem.read mem src n ++ [mem.getD (src + n) 0] := by
    rw [Mem.read_add, Mem.read_one]
  rw [hread, streamed, streamed, hone, Ccm.stream_concat, Mem.length_read,
    Mem.write_append _ _ _ hlen]

/-- What has not been done yet is as it was. -/
theorem read_streamed {m off n : Nat} (h : dst + m ≤ off) :
    Mem.read (streamed pads mem dst src m) off n = Mem.read mem off n :=
  Mem.read_write_of_le (by simpa using h)

/-- Block `n`, or a part of it, behind whole blocks. -/
theorem streamed_block {n count : Nat} (hcount : count ≤ 16) :
    Mem.write (streamed pads mem dst src (16 * n)) (dst + 16 * n)
        (List.zipWith (· ^^^ ·) (Mem.read mem (src + 16 * n) count) (pads n).toList) =
      streamed pads mem dst src (16 * n + count) := by
  have hlen : (Ccm.stream pads (Mem.read mem src (16 * n))).length = 16 * n := by simp
  rw [streamed, streamed, Mem.write_append _ _ _ hlen, Mem.read_add,
    Ccm.stream_append (Mem.length_read _ _ _) (by rwa [Mem.length_read])]

/-- The innermost loop does as many octets as it is told. -/
theorem copyPad_streamed {pad : Octets 16} {m : Nat} {count : Nat}
    (hapart : dst ≤ src ∨ src + (m + count) ≤ dst)
    (hpad : ∀ i < count, pad.toList.getD i 0 = Ccm.octetAt pads (m + i)) :
    copyPad pad (dst + m) (src + m) count (streamed pads mem dst src m) =
      streamed pads mem dst src (m + count) := by
  induction count with
  | zero => rfl
  | succ count ih =>
    have hprev := ih (by omega) fun i hi => hpad i (Nat.lt_succ_of_lt hi)
    rw [copyPad] at hprev
    rw [copyPad, List.range_succ, Cipher.rounds_append, hprev, Cipher.rounds_cons,
      Cipher.rounds_nil, hpad count (Nat.lt_succ_self _), Nat.add_assoc dst, Nat.add_assoc src,
      streamed_succ (by omega), Nat.add_assoc]

end

/-- `Block_CTR` after `n` passes. -/
theorem set_get_last (c : Octets 16) (n : Nat) :
    (c.set 15 (c.get 15 + UInt8.ofNat n)).set 15
        ((c.set 15 (c.get 15 + UInt8.ofNat n)).get 15 + 1) =
      c.set 15 (c.get 15 + UInt8.ofNat (n + 1)) := by
  refine List.Vector.ext fun i => ?_
  by_cases hi : i = 15
  · subst hi
    rw [List.Vector.get_set_same, List.Vector.get_set_same, List.Vector.get_set_same,
      UInt8.ofNat_add, UInt8.add_assoc]
    rfl
  · rw [List.Vector.get_set_of_ne (Ne.symm hi), List.Vector.get_set_of_ne (Ne.symm hi),
      List.Vector.get_set_of_ne (Ne.symm hi)]

/-- **The loop over the text** adds the pads to it, also where it moves it to the front. -/
theorem ctrLoop_eq (key blockCtr : Octets 16) {mem : List UInt8} {dst src length : Nat}
    (hapart : dst ≤ src ∨ src + length ≤ dst) (hdst : dst ≤ mem.length) :
    ctrLoop key blockCtr dst src length mem =
      Mem.write mem dst (Ccm.stream (ccmPads key blockCtr) (Mem.read mem src length)) := by
  have hloop : ∀ n, n ≤ (length + 15) / 16 →
      Cipher.rounds (ctrRound key dst src length) (blockCtr, mem) (List.range n) =
        (blockCtr.set 15 (blockCtr.get 15 + UInt8.ofNat n),
          streamed (ccmPads key blockCtr) mem dst src (min length (16 * n))) := by
    intro n
    induction n with
    | zero =>
      intro _
      have hzero : blockCtr.set 15 (blockCtr.get 15 + UInt8.ofNat 0) = blockCtr := by
        refine List.Vector.ext fun i => ?_
        by_cases hi : i = 15
        · subst hi
          rw [List.Vector.get_set_same]
          exact UInt8.add_zero _
        · rw [List.Vector.get_set_of_ne (Ne.symm hi)]
      rw [Nat.mul_zero, Nat.min_zero, streamed_zero hdst, hzero]
      rfl
    | succ n ih =>
      intro hn
      have hmin : min length (16 * n) = 16 * n := by omega
      have hpad : ∀ i < min (length - 16 * n) 16,
          (ccmPads key blockCtr n).toList.getD i 0 =
            Ccm.octetAt (ccmPads key blockCtr) (16 * n + i) := by
        intro i hi
        rw [Ccm.octetAt, show (16 * n + i) / 16 = n by omega, show (16 * n + i) % 16 = i by omega]
      have hcopy : copyPad (ccmPads key blockCtr n) (dst + 16 * n) (src + 16 * n)
          (min (length - 16 * n) 16) (streamed (ccmPads key blockCtr) mem dst src (16 * n)) =
            streamed (ccmPads key blockCtr) mem dst src (16 * n + min (length - 16 * n) 16) :=
        copyPad_streamed (by omega) hpad
      rw [List.range_succ, Cipher.rounds_append, ih (by omega), Cipher.rounds_cons,
        Cipher.rounds_nil, ctrRound, hmin]
      dsimp only
      rw [set_get_last, show min length (16 * (n + 1)) = 16 * n + min (length - 16 * n) 16 by omega,
        ← hcopy]
      rfl
  rw [ctrLoop, hloop _ (Nat.le_refl _), show min length (16 * ((length + 15) / 16)) = length by omega]
  rfl

/-! ## 3. One mode -/

/-- The mode of the two functions, at a key, a nonce, associated data and a length of the tag. -/
def aesCcmMode (key : Octets 16) (nonce aad : List UInt8) (macLength : Nat) : Ccm.Mode where
  pads := ccmPads key (ccmBlockCtr nonce)
  tagPad := rtAesEncrypt key (ccmBlockCtr nonce)
  mac := fun payload => aesCcmMac key payload nonce aad macLength

section

variable {key : Octets 16} {nonce aad : List UInt8} {macLength : Nat}

theorem ccmCheck_eq_none (hnonce : 7 ≤ nonce.length ∧ nonce.length ≤ 13)
    (hmac : macLength ∈ [4, 6, 8, 10, 12, 14, 16]) : ccmCheck key.toList nonce macLength = none := by
  rw [ccmCheck, if_neg (by simp), if_neg (by omega), if_neg (not_not_intro hmac)]

/-- **`AES_CCM_Encrypt`**, where the text is written over nothing that is still to be read. -/
theorem aesCcmEncrypt_eq (hnonce : 7 ≤ nonce.length ∧ nonce.length ≤ 13)
    (hmac : macLength ∈ [4, 6, 8, 10, 12, 14, 16]) {mem : List UInt8}
    {plainText cipherText length room : Nat}
    (hapart : cipherText ≤ plainText ∨ plainText + length ≤ cipherText)
    (hcipher : cipherText ≤ mem.length) (hroom : length + macLength ≤ room) :
    aesCcmEncrypt mem plainText length key.toList nonce aad macLength cipherText room =
      .ok (Mem.write mem cipherText
        ((aesCcmMode key nonce aad macLength).sealed macLength (Mem.read mem plainText length)),
        length + macLength) := by
  have hlen : (Ccm.stream (ccmPads key (ccmBlockCtr nonce)) (Mem.read mem plainText length)).length =
      length := by
    rw [Ccm.length_stream, Mem.length_read]
  rw [aesCcmEncrypt, ccmCheck_eq_none hnonce hmac]
  dsimp only
  rw [if_neg (by omega), Octets.ofList_toList, ctrLoop_eq _ _ hapart hcipher,
    Mem.write_append _ _ _ hlen]
  rfl

/-- **`AES_CCM_Decrypt`**, where the text may come to lie in front of its place or behind it. -/
theorem aesCcmDecrypt_eq (hnonce : 7 ≤ nonce.length ∧ nonce.length ≤ 13)
    (hmac : macLength ∈ [4, 6, 8, 10, 12, 14, 16]) {mem : List UInt8}
    {cipherText cipherTextLength plainText room : Nat}
    (hapart : plainText ≤ cipherText ∨ cipherText + cipherTextLength ≤ plainText)
    (hplain : plainText ≤ mem.length) (hlong : macLength ≤ cipherTextLength)
    (hmax : cipherTextLength < 2 ^ 32) (hroom : cipherTextLength - macLength ≤ room) :
    aesCcmDecrypt mem cipherText cipherTextLength key.toList nonce aad macLength plainText room =
      match (aesCcmMode key nonce aad macLength).opened macLength
        (Mem.read mem cipherText cipherTextLength) with
      | some l => .ok (Mem.write mem plainText l, l.length)
      | none => .error (-5) := by
  have hmac16 : macLength ≤ 16 := by
    simp only [List.mem_cons, List.not_mem_nil, or_false] at hmac
    omega
  have hlength : uintSub cipherTextLength macLength = cipherTextLength - macLength :=
    uintSub_eq hlong hmax
  set M := aesCcmMode key nonce aad macLength with hM
  set length := cipherTextLength - macLength with hlen
  have hsplit : Mem.read mem cipherText cipherTextLength =
      Mem.read mem cipherText length ++ Mem.read mem (cipherText + length) macLength := by
    rw [← Mem.read_add, hlen, Nat.sub_add_cancel hlong]
  have htext : (Mem.read mem cipherText length).length = length := Mem.length_read _ _ _
  set plain := Ccm.stream M.pads (Mem.read mem cipherText length) with hplainText
  have hplainLen : plain.length = length := by rw [hplainText, Ccm.length_stream, htext]
  have hopened : M.opened macLength (Mem.read mem cipherText cipherTextLength) =
      if M.tag macLength plain = Mem.read mem (cipherText + length) macLength then some plain
      else none := by
    rw [Ccm.Mode.opened, Mem.length_read, ← hlen, hsplit, List.take_left' htext,
      List.drop_left' htext]
  have hwritten : Mem.read (Mem.write mem plainText plain) plainText length = plain := by
    have hread := Mem.read_write mem plain plainText
    rwa [hplainLen] at hread
  have hloop : ctrLoop key (ccmBlockCtr nonce) plainText cipherText length mem =
      Mem.write mem plainText plain := ctrLoop_eq _ _ (by omega) hplain
  have htag : M.tag macLength plain = Mem.read mem (cipherText + length) macLength ↔
      List.zipWith (· ^^^ ·) (Mem.read mem (cipherText + length) macLength)
        (rtAesEncrypt key (ccmBlockCtr nonce)).toList =
        (aesCcmMac key plain nonce aad macLength).toList.take macLength :=
    M.tag_eq_iff hmac16 plain (Mem.length_read _ _ _)
  rw [hopened, aesCcmDecrypt, ccmCheck_eq_none hnonce hmac, hlength, Octets.ofList_toList]
  dsimp only
  rw [if_neg (by omega), hloop, hwritten]
  by_cases hok : M.tag macLength plain = Mem.read mem (cipherText + length) macLength
  · rw [if_pos hok, if_neg (not_not_intro (htag.1 hok))]
    dsimp only
    rw [hplainLen]
  · rw [if_neg hok, if_pos fun h => hok (htag.2 h)]

end

end Mt7601.Crypt
