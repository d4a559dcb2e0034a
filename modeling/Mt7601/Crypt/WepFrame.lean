/-
# WEP frames sent and received

`RTMPConstructWEPIVHdr`, `RTMPSoftEncryptWEP` and `RTMPSoftDecryptWEP` of `common/cmm_wep.c`. Both
sides begin ARC4 with the IV of the header and the key, and take one octet of its stream for each
octet of the text and the ICV, the sender in place and the receiver over the header
(`arc4Compute_eq`). The table of `RTMP_CALC_FCS32` is CRC-32 an octet at a time
(`rtmpCalcFcs32_eq`), so the receiver takes a frame exactly if its last four octets are the check
sequence of what is in front of them.
-/
import Mt7601.Crypt.Wep
import Mt7601.Lib.Crc32

namespace Mt7601.Crypt

open Wpa (CipherKey)

/-! ## 1. The check sequence -/

/-- What the table has for each octet. -/
theorem fcstab32_eq {i : Nat} (h : i < 256) :
    (fcstab32.getD i 0).toBitVec = Crc32.places 8 (BitVec.ofNat 32 i) := by
  have htable : fcstab32 =
      (List.range 256).map fun i => UInt32.ofBitVec (Crc32.places 8 (BitVec.ofNat 32 i)) := by
    decide +kernel
  rw [htable]
  simp [h]

/-- **`RTMP_CALC_FCS32` is the register of CRC-32.** -/
theorem rtmpCalcFcs32_eq (fcs : UInt32) (cp : List UInt8) :
    (rtmpCalcFcs32 fcs cp).toBitVec = Crc32.register fcs.toBitVec cp := by
  induction cp generalizing fcs with
  | nil => rfl
  | cons b cp ih =>
    have hindex : ((fcs ^^^ b.toUInt32) &&& 0xff).toNat < 256 := by
      rw [UInt32.toNat_and]
      exact Nat.and_lt_two_pow (n := 8) _ (by decide)
    have hword : BitVec.ofNat 32 ((fcs ^^^ b.toUInt32) &&& 0xff).toNat =
        (fcs.toBitVec ^^^ b.toBitVec.setWidth 32) &&& 0xff := by
      refine BitVec.eq_of_toNat_eq ?_
      rw [BitVec.toNat_ofNat, Nat.mod_eq_of_lt (hindex.trans (by decide))]
      rfl
    have hstep : ((fcs >>> 8) ^^^
        fcstab32.getD ((fcs ^^^ b.toUInt32) &&& 0xff).toNat 0).toBitVec =
          Crc32.byte fcs.toBitVec b := by
      rw [Crc32.byte_eq, ← hword, ← fcstab32_eq hindex]
      rfl
    have hrest := ih ((fcs >>> 8) ^^^ fcstab32.getD ((fcs ^^^ b.toUInt32) &&& 0xff).toNat 0)
    rw [hstep] at hrest
    exact hrest

/-- The ICV of a text as a number. -/
theorem toBitVec_icv (l : List UInt8) :
    (rtmpCalcFcs32 pppInitFcs32 l ^^^ 0xffffffff).toBitVec = Crc32.sequence l := by
  rw [UInt32.toBitVec_xor, rtmpCalcFcs32_eq, Crc32.sequence, ← BitVec.xor_allOnes]
  rfl

theorem toBitVec_leUint : ∀ l : List UInt8, l.length = 4 → (leUint l).toBitVec = LeWord.word l
  | [a, b, c, d], _ => by
    rw [LeWord.word_four]
    rfl

/-- **The ICV is right** if its four octets are the check sequence of the text. -/
theorem icvMatches_iff (mem : List UInt8) (len : Nat) :
    icvMatches mem len = true ↔ Mem.read mem len 4 = Crc32.octets (Mem.read mem 0 len) := by
  have hlen : (Mem.read mem len 4).length = 4 := Mem.length_read _ _ _
  rw [icvMatches, decide_eq_true_iff, ← UInt32.toBitVec_inj, toBitVec_icv, lenIcv,
    toBitVec_leUint _ hlen, eq_comm, LeWord.word_eq_iff hlen]
  rfl

/-! ## 2. The stream -/

/-- The context with the octet it has given last. -/
def arc4Step (s : Arc4Ctx × UInt8) : Arc4Ctx × UInt8 := s.1.next

/-- A text under the stream of a context. -/
def arc4Stream (ctx : Arc4Ctx) (l : List UInt8) : List UInt8 :=
  Cipher.keystream arc4Step Prod.snd (ctx, 0) l

@[simp] theorem length_arc4Stream (ctx : Arc4Ctx) (l : List UInt8) :
    (arc4Stream ctx l).length = l.length :=
  Cipher.length_keystream _ _

theorem arc4Stream_arc4Stream (ctx : Arc4Ctx) (l : List UInt8) :
    arc4Stream ctx (arc4Stream ctx l) = l :=
  Cipher.keystream_keystream _ _

/-- **`ARC4_Compute`** puts the text under the stream, also where it moves it to the front. -/
theorem arc4Compute_eq (ctx : Arc4Ctx) {mem : List UInt8} {inputBlock outputBlock : Nat}
    (hle : outputBlock ≤ inputBlock) (hout : outputBlock ≤ mem.length) (n : Nat) :
    arc4Compute ctx mem inputBlock n outputBlock =
      ((arc4Step^[n] (ctx, 0)).1,
        Mem.write mem outputBlock (arc4Stream ctx (Mem.read mem inputBlock n))) := by
  induction n with
  | zero =>
    have hread : Mem.read mem inputBlock 0 = [] := List.length_eq_zero_iff.1 (Mem.length_read _ _ _)
    rw [hread]
    exact Prod.ext rfl (Mem.write_nil hout).symm
  | succ n ih =>
    have hlen : (arc4Stream ctx (Mem.read mem inputBlock n)).length = n := by simp
    have hone : Mem.read mem inputBlock (n + 1) =
        Mem.read mem inputBlock n ++ [mem.getD (inputBlock + n) 0] := by
      rw [Mem.read_add, Mem.read_one]
    have hstream : arc4Stream ctx (Mem.read mem inputBlock (n + 1)) =
        arc4Stream ctx (Mem.read mem inputBlock n) ++
          [mem.getD (inputBlock + n) 0 ^^^ (arc4Step (arc4Step^[n] (ctx, 0))).2] := by
      rw [hone, arc4Stream, Cipher.keystream_concat, Mem.length_read, Function.iterate_succ_apply']
      rfl
    -- what has been written lies in front of the octet that is read
    have hkept : (Mem.write mem outputBlock (arc4Stream ctx (Mem.read mem inputBlock n))).getD
        (inputBlock + n) 0 = mem.getD (inputBlock + n) 0 := Mem.getD_write_of_le (by omega)
    have hround : arc4Compute ctx mem inputBlock (n + 1) outputBlock =
        arc4Round inputBlock outputBlock n (arc4Compute ctx mem inputBlock n outputBlock) := by
      rw [arc4Compute, List.range_succ, Cipher.rounds_append]
      rfl
    rw [hround, ih, arc4Round, hstream, Function.iterate_succ_apply',
      ← Mem.write_append _ _ _ hlen, hkept]
    rfl

/-! ## 3. The sender -/

/-- `RTMPConstructWEPIVHdr` -/
def rtmpConstructWepIvHdr (keyIdx : UInt8) (pn : Octets 6) : List UInt8 :=
  pn.toList.take 3 ++ [keyIdx <<< 6]

/-- `RTMPSoftEncryptWEP`: the memory at `pData` once it has done. -/
def rtmpSoftEncryptWep (pIvHdr : List UInt8) (pKey : CipherKey) (pData : List UInt8)
    (dataByteCnt : Nat) : Option (List UInt8) :=
  if pKey.keyLen = 0 then none
  else
    let ctx := rtmpInitWepEngine (Mem.read pIvHdr 0 3) pKey.key pKey.keyLen
    let fcscrc32 := rtmpCalcFcs32 pppInitFcs32 (Mem.read pData 0 dataByteCnt) ^^^ 0xffffffff
    let pData := Mem.write pData dataByteCnt (LeWord.octets fcscrc32.toBitVec)
    some (arc4Compute ctx pData 0 (dataByteCnt + lenIcv) 0).2

/-- The context of both sides. -/
def wepCtx (pKey : CipherKey) (pIvHdr : List UInt8) : Arc4Ctx :=
  rtmpInitWepEngine (Mem.read pIvHdr 0 3) pKey.key pKey.keyLen

/-- What is sent behind the header: the text and its check sequence, under the stream. -/
theorem rtmpSoftEncryptWep_eq {pKey : CipherKey} (hkey : pKey.keyLen ≠ 0)
    (pIvHdr payload room : List UInt8) :
    ∃ cipher, rtmpSoftEncryptWep pIvHdr pKey (payload ++ room) payload.length = some cipher ∧
      Mem.read cipher 0 (payload.length + 4) =
        arc4Stream (wepCtx pKey pIvHdr) (payload ++ Crc32.octets payload) := by
  have htext : Mem.read (payload ++ room) 0 payload.length = payload := Mem.read_zero_of_append
  have hlen : (arc4Stream (wepCtx pKey pIvHdr) (payload ++ Crc32.octets payload)).length =
      payload.length + 4 := by
    rw [length_arc4Stream, List.length_append]
    rfl
  have hicv : LeWord.octets (rtmpCalcFcs32 pppInitFcs32 payload ^^^ 0xffffffff).toBitVec =
      Crc32.octets payload := by
    rw [toBitVec_icv]
    rfl
  have hplain : Mem.read (Mem.write (payload ++ room) payload.length (Crc32.octets payload)) 0
      (payload.length + 4) = payload ++ Crc32.octets payload := by
    have hicvRead := Mem.read_write (payload ++ room) (Crc32.octets payload) payload.length
    have hsum := Mem.read_add (Mem.write (payload ++ room) payload.length (Crc32.octets payload)) 0
      payload.length 4
    rw [Nat.zero_add, Mem.read_write_front, htext] at hsum
    exact hsum.trans (congrArg (payload ++ ·) hicvRead)
  have hkept := Mem.read_write (Mem.write (payload ++ room) payload.length (Crc32.octets payload))
    (arc4Stream (wepCtx pKey pIvHdr) (payload ++ Crc32.octets payload)) 0
  rw [hlen] at hkept
  refine ⟨_, ?_, hkept⟩
  rw [rtmpSoftEncryptWep, if_neg hkey]
  dsimp only
  rw [htext, hicv, lenIcv, arc4Compute_eq _ (Nat.le_refl 0) (Nat.zero_le _), hplain]
  rfl

/-! ## 4. The receiver -/

/-- What a frame of a header and more is deciphered to. -/
def wepText (pKey : CipherKey) (pData : List UInt8) : List UInt8 :=
  arc4Stream (wepCtx pKey pData) (pData.drop 4)

theorem length_wepText (pKey : CipherKey) (pData : List UInt8) :
    (wepText pKey pData).length = pData.length - 4 := by
  rw [wepText, length_arc4Stream, List.length_drop]

/-- The text is written over the header. -/
theorem read_wepDeciphered (pKey : CipherKey) (pData : List UInt8) :
    Mem.read (wepDeciphered pKey pData (pData.length - 4)) 0 (pData.length - 4) =
      wepText pKey pData := by
  have hbehind : Mem.read pData 4 (pData.length - 4) = pData.drop 4 := by
    have hlen : (pData.drop 4).length = pData.length - 4 := List.length_drop
    rw [Mem.read, List.takeD_eq_take 0 (Nat.le_of_eq hlen.symm), ← hlen, List.take_length]
  have hread := Mem.read_write pData (wepText pKey pData) 0
  rw [length_wepText] at hread
  rw [wepDeciphered, lenWepIvHdr, arc4Compute_eq _ (Nat.zero_le 4) (Nat.zero_le _), hbehind]
  exact hread

/-- The text and its last four octets. -/
theorem wepDeciphered_split (pKey : CipherKey) {pData : List UInt8} (hlen : 8 ≤ pData.length) :
    Mem.read (wepDeciphered pKey pData (pData.length - 4)) 0 (pData.length - 8) =
        (wepText pKey pData).take (pData.length - 8) ∧
      Mem.read (wepDeciphered pKey pData (pData.length - 4)) (pData.length - 8) 4 =
        (wepText pKey pData).drop (pData.length - 8) := by
  have hsum := Mem.read_add (wepDeciphered pKey pData (pData.length - 4)) 0 (pData.length - 8) 4
  rw [show pData.length - 8 + 4 = pData.length - 4 by omega, read_wepDeciphered, Nat.zero_add] at hsum
  rw [hsum, List.take_left' (Mem.length_read _ _ _), List.drop_left' (Mem.length_read _ _ _)]
  exact ⟨rfl, rfl⟩

/-- **A frame is accepted** exactly if it has room for an ICV and its text ends with its check
sequence. -/
theorem rtmpSoftDecryptWep_eq_some_iff {pKey : CipherKey} (hkey : pKey.keyLen ≠ 0)
    {pData : List UInt8} {n : UInt16} (hdata : pData.length = n.toNat)
    (r : List UInt8 × UInt16) :
    rtmpSoftDecryptWep pKey pData n = .ok (some r) ↔
      (8 ≤ n.toNat ∧ (wepText pKey pData).drop (n.toNat - 8) =
        Crc32.octets ((wepText pKey pData).take (n.toNat - 8))) ∧
      r = (wepDeciphered pKey pData (n.toNat - 4), UInt16.ofNat (n.toNat - 8)) := by
  rcases Nat.lt_or_ge n.toNat 8 with hshort | hlong
  · constructor
    · intro hr
      exact absurd ⟨_, hr⟩ (rtmpSoftDecryptWep_not_safe hkey hshort)
    · rintro ⟨⟨hlen, -⟩, -⟩
      omega
  · obtain ⟨htext, hicv⟩ := wepDeciphered_split pKey (hdata ▸ hlong)
    rw [hdata] at htext hicv
    have hmatch := icvMatches_iff (wepDeciphered pKey pData (n.toNat - 4)) (n.toNat - 8)
    rw [htext, hicv] at hmatch
    rw [rtmpSoftDecryptWep_eq hkey hdata hlong, ← hmatch]
    cases icvMatches (wepDeciphered pKey pData (n.toNat - 4)) (n.toNat - 8) with
    | false => simp
    | true => simp [hlong, eq_comm]

/-- A frame that was sent, as it is deciphered. -/
theorem wepText_sent (pKey : CipherKey) {pIvHdr payload cipher : List UInt8}
    (hhdr : pIvHdr.length = 4)
    (hcipher : cipher = arc4Stream (wepCtx pKey pIvHdr) (payload ++ Crc32.octets payload)) :
    wepText pKey (pIvHdr ++ cipher) = payload ++ Crc32.octets payload := by
  have hctx : wepCtx pKey (pIvHdr ++ cipher) = wepCtx pKey pIvHdr := by
    rw [wepCtx, wepCtx, Mem.read_append_of_le (by omega)]
  rw [wepText, hctx, List.drop_left' hhdr, hcipher, arc4Stream_arc4Stream]

namespace Example

def wepKey : CipherKey := { keyLen := 5 }

end Example

end Mt7601.Crypt
