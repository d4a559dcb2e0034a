/-
# The other software decryption of CCMP

`RTMPSoftDecryptAES` of `common/cmm_aes.c` does what `RTMPSoftDecryptCCMP` does, over the byte-serial
cipher and with blocks of its own: `construct_mic_iv`, `construct_mic_header1`,
`construct_mic_header2` and `construct_ctr_preload`. It takes the whole frame and moves the text over
the CCMP header behind the 802.11 header.

It opens in a mode too (`rtmpSoftDecryptAes_eq`), and on data frames the mode is that of
`RTMPSoftDecryptCCMP` but for two things: its counter has two octets, and of the subtype it mutes
the bits 4 and 5 only, not bit 6. So the two agree on data frames whose subtype has bit 6 clear, up
to 255 blocks; behind that they never agree on a frame that was sent.
-/
import Mt7601.Crypt.AesBytes
import Mt7601.Crypt.Ccmp

namespace Mt7601.Crypt

open Wpa (CipherKey)

/-! ## 1. The blocks -/

section

variable (mpdu : List UInt8) (a4Exists qcExists : Bool)

/-- The priority: of the QoS control field, if there is one. -/
def qosTc : UInt8 :=
  if qcExists && a4Exists then mpdu.getD 30 0 &&& 0x0f
  else if qcExists && !a4Exists then mpdu.getD 24 0 &&& 0x0f
  else 0

/-- `construct_mic_header1` -/
def constructMicHeader1 (headerLength : Nat) : Octets 16 :=
  .ofList 16 ([UInt8.ofNat ((headerLength - 2) / 256), UInt8.ofNat ((headerLength - 2) % 256),
    mpdu.getD 0 0 &&& 0xcf, mpdu.getD 1 0 &&& 0xc7] ++ Mem.read mpdu 4 12)

/-- `construct_mic_header2` -/
def constructMicHeader2 : Octets 16 :=
  .ofList 16 (Mem.read mpdu 16 6 ++ [mpdu.getD 22 0 &&& 0x0f, 0x00] ++
    (if !qcExists && a4Exists then Mem.read mpdu 24 6
    else if qcExists && !a4Exists then [mpdu.getD 24 0 &&& 0x0f, mpdu.getD 25 0 &&& 0x00]
    else if qcExists && a4Exists then
      Mem.read mpdu 24 6 ++ [mpdu.getD 30 0 &&& 0x0f, mpdu.getD 31 0 &&& 0x00]
    else []))

/-- `construct_mic_iv` -/
def constructMicIv (payloadLength : Nat) (pnVector : Octets 6) : Octets 16 :=
  .ofList 16 ([0x59, qosTc mpdu a4Exists qcExists] ++ Mem.read mpdu 10 6 ++
    pnVector.toList.reverse ++ [UInt8.ofNat (payloadLength / 256), UInt8.ofNat (payloadLength % 256)])

/-- `construct_ctr_preload` -/
def constructCtrPreload (pnVector : Octets 6) (c : Nat) : Octets 16 :=
  .ofList 16 ([0x01, qosTc mpdu a4Exists qcExists] ++ Mem.read mpdu 10 6 ++
    pnVector.toList.reverse ++ [UInt8.ofNat (c / 256), UInt8.ofNat (c % 256)])

end

/-! ## 2. The function -/

/-- `HeaderLen`. The type of the frame is not looked at. -/
def softAesHeaderLen (pData : List UInt8) : Nat :=
  24 + (if a4Exists pData then 6 else 0) + (if qosSubtype pData then 2 else 0)

/-- A whole block of the payload: `src` is `payload_index`, and the text goes 8 octets in front. -/
def softAesBlock (pad : Octets 16) (src : Nat) (mem : List UInt8) : List UInt8 :=
  Mem.write mem (src - 8) (xor128 pad (.ofList 16 (Mem.read mem src 16))).toList

/-- The short final block, padded with zeros. -/
def softAesLast (pad : Octets 16) (src remainder : Nat) (mem : List UInt8) : List UInt8 :=
  if remainder > 0 then
    Mem.write mem (src - 8)
      ((xor128 pad (.ofList 16 (Mem.read mem src remainder))).toList.take remainder)
  else mem

/-- The chain over the payload: whole blocks, then the short one if there is one. -/
def softAesMac (key x : Octets 16) (payload : List UInt8) : Octets 16 :=
  let numBlocks := payload.length / 16
  let x := Cipher.rounds
    (fun i x => aes128k128d key (xor128 x (.ofList 16 (Mem.read payload (16 * i) 16)))) x
    (List.range numBlocks)
  if payload.length % 16 > 0 then
    aes128k128d key
      (xor128 x (.ofList 16 (Mem.read payload (16 * numBlocks) (payload.length % 16))))
  else x

/-- `RTMPSoftDecryptAES`: the frame once it has done. -/
def rtmpSoftDecryptAes (pData : List UInt8) (dataByteCnt : Nat) (pWpaKey : CipherKey) :
    Option (List UInt8) :=
  let a4 := a4Exists pData
  let qc := qosSubtype pData
  let headerLen := softAesHeaderLen pData
  if pWpaKey.keyLen = 0 then none
  else
    let pn := ccmpPn (pData.drop headerLen)
    let payloadLen := uintSub (uintSub (uintSub dataByteCnt headerLen) 8) 8
    let numBlocks := payloadLen / 16
    let pad := fun c => aes128k128d pWpaKey.key (constructCtrPreload pData a4 qc pn c)
    let start := headerLen + 8
    let mem := Cipher.rounds (fun i mem => softAesBlock (pad (i + 1)) (start + 16 * i) mem) pData
      (List.range numBlocks)
    let mem := softAesLast (pad (numBlocks + 1)) (start + 16 * numBlocks) (payloadLen % 16) mem
    let trailMic :=
      (xor128 (pad 0) (.ofList 16 (Mem.read mem (start + payloadLen) 8))).toList.take 8
    -- the protected bit is forced on before the header goes into the code
    let mem := Mem.write mem 1 [mem.getD 1 0 ||| 0x40]
    let micIv := constructMicIv mem a4 qc payloadLen pn
    let x := aes128k128d pWpaKey.key micIv
    let x := aes128k128d pWpaKey.key (xor128 x (constructMicHeader1 mem headerLen))
    let x := aes128k128d pWpaKey.key (xor128 x (constructMicHeader2 mem a4 qc))
    let mic := (softAesMac pWpaKey.key x (Mem.read mem headerLen payloadLen)).toList.take 8
    if mic ≠ trailMic then none else some mem

/-! ## 3. The loops -/

theorem xor128_eq_add (a b : Octets 16) : xor128 a b = Ccm.add b a := by
  refine List.Vector.toList_injective ?_
  rw [Ccm.toList_add, List.zipWith_comm_of_comm UInt8.xor_comm]
  exact List.Vector.zipWith_toList _ _ _

/-- A pad added to some octets filled up with zeros, of which the first are taken. -/
theorem take_xor128 (pad : Octets 16) {t : List UInt8} {n : Nat} (ht : t.length = n) (hn : n ≤ 16) :
    (xor128 pad (.ofList 16 t)).toList.take n = List.zipWith (· ^^^ ·) t pad.toList := by
  have hfill : (Octets.ofList 16 t).toList.take n = t := by
    have happend := Mem.read_append t [] (16 - n)
    rw [List.append_nil, Mem.read, List.drop_zero, ht, Nat.add_sub_cancel' hn] at happend
    rw [Octets.toList_ofList, happend, List.take_left' ht]
  rw [xor128_eq_add, Ccm.toList_add, ← Ccm.zipWith_xor_take, hfill]

section

variable {pads : Nat → Octets 16} {mem : List UInt8} {off : Nat}

theorem softAesBlock_streamed (n : Nat) :
    softAesBlock (pads n) (off + 8 + 16 * n) (streamed pads mem off (off + 8) (16 * n)) =
      streamed pads mem off (off + 8) (16 * (n + 1)) := by
  have hfull : ∀ v : Octets 16, v.toList = v.toList.take 16 := fun v =>
    (List.take_of_length_le (by simp)).symm
  rw [softAesBlock, read_streamed (by omega), hfull,
    take_xor128 _ (Mem.length_read _ _ _) (Nat.le_refl _),
    show off + 8 + 16 * n - 8 = off + 16 * n by omega, streamed_block (Nat.le_refl _)]
  rfl

theorem softAesLast_streamed (n : Nat) {remainder : Nat} (h : remainder < 16) :
    softAesLast (pads n) (off + 8 + 16 * n) remainder
        (streamed pads mem off (off + 8) (16 * n)) =
      streamed pads mem off (off + 8) (16 * n + remainder) := by
  rw [softAesLast]
  split_ifs with hpos
  · rw [read_streamed (by omega), take_xor128 _ (Mem.length_read _ _ _) (by omega),
      show off + 8 + 16 * n - 8 = off + 16 * n by omega, streamed_block (by omega)]
  · obtain rfl : remainder = 0 := by omega
    rfl

/-- **The loop over the text**, with the short block. -/
theorem softAes_text (hoff : off ≤ mem.length) (length : Nat) :
    softAesLast (pads (length / 16)) (off + 8 + 16 * (length / 16)) (length % 16)
        (Cipher.rounds (fun i mem => softAesBlock (pads i) (off + 8 + 16 * i) mem) mem
          (List.range (length / 16))) =
      Mem.write mem off (Ccm.stream pads (Mem.read mem (off + 8) length)) := by
  have hloop : ∀ n, Cipher.rounds (fun i mem => softAesBlock (pads i) (off + 8 + 16 * i) mem) mem
      (List.range n) = streamed pads mem off (off + 8) (16 * n) := by
    intro n
    induction n with
    | zero => exact (streamed_zero hoff).symm
    | succ n ih =>
      rw [List.range_succ, Cipher.rounds_append, ih, Cipher.rounds_cons, Cipher.rounds_nil,
        softAesBlock_streamed]
  rw [hloop, softAesLast_streamed _ (Nat.mod_lt _ (by decide)),
    show 16 * (length / 16) + length % 16 = length by omega]
  rfl

end

/-- **The chain over the payload.** -/
theorem softAesMac_eq (key x : Octets 16) (payload : List UInt8) :
    softAesMac key x payload = Ccm.chain (aes128k128d key) x payload := by
  have hblock : ∀ i y, aes128k128d key (xor128 y (.ofList 16 (Mem.read payload (16 * i) 16))) =
      aes128k128d key (Ccm.add (Ccm.blockAt payload i) y) := by
    intro i y
    rw [xor128_eq_add, Ccm.blockAt]
  rw [softAesMac, Ccm.chain_eq]
  simp only [hblock, Cipher.rounds]
  by_cases hzero : payload.length % 16 = 0
  · rw [if_neg (by omega), if_pos hzero]
  · rw [if_pos (by omega), if_neg hzero, xor128_eq_add,
      ← Ccm.blockAt_eq (i := payload.length / 16) (n := payload.length % 16) (by omega) (by omega)]

/-! ## 4. Its mode -/

/-- The frame with the protected bit on. -/
def withProtected (pData : List UInt8) : List UInt8 :=
  Mem.write pData 1 [pData.getD 1 0 ||| 0x40]

/-- The chain over the three blocks in front of the payload. -/
def softAesChain (pData : List UInt8) (key : Octets 16) (pn : Octets 6) (payloadLen : Nat) :
    Octets 16 :=
  let hdr := withProtected pData
  let x := aes128k128d key
    (constructMicIv hdr (a4Exists pData) (qosSubtype pData) payloadLen pn)
  let x := aes128k128d key (xor128 x (constructMicHeader1 hdr (softAesHeaderLen pData)))
  aes128k128d key (xor128 x (constructMicHeader2 hdr (a4Exists pData) (qosSubtype pData)))

/-- The mode of `RTMPSoftDecryptAES`. -/
def softAesMode (pData : List UInt8) (key : Octets 16) (pn : Octets 6) : Ccm.Mode where
  pads := fun i => aes128k128d key
    (constructCtrPreload pData (a4Exists pData) (qosSubtype pData) pn (i + 1))
  tagPad := aes128k128d key
    (constructCtrPreload pData (a4Exists pData) (qosSubtype pData) pn 0)
  mac := fun l => Ccm.chain (aes128k128d key) (softAesChain pData key pn l.length) l

section

variable {mem mem' : List UInt8} {a4 qc : Bool}

/-- The blocks are made of the header alone. -/
theorem blocks_congr
    (h : Mem.read mem 0 (24 + (if a4 then 6 else 0) + (if qc then 2 else 0)) =
      Mem.read mem' 0 (24 + (if a4 then 6 else 0) + (if qc then 2 else 0))) :
    (∀ len pn, constructMicIv mem a4 qc len pn = constructMicIv mem' a4 qc len pn) ∧
      (∀ len, constructMicHeader1 mem len = constructMicHeader1 mem' len) ∧
      constructMicHeader2 mem a4 qc = constructMicHeader2 mem' a4 qc := by
  have h0 := Mem.getD_congr h (i := 0) (by omega)
  have h1 := Mem.getD_congr h (i := 1) (by omega)
  have h22 := Mem.getD_congr h (i := 22) (by omega)
  have haddr : Mem.read mem 4 12 = Mem.read mem' 4 12 := Mem.read_congr h (by omega)
  have haddr2 : Mem.read mem 10 6 = Mem.read mem' 10 6 := Mem.read_congr h (by omega)
  have haddr3 : Mem.read mem 16 6 = Mem.read mem' 16 6 := Mem.read_congr h (by omega)
  have hqosTc : qosTc mem a4 qc = qosTc mem' a4 qc := by
    cases a4 <;> cases qc <;> simp only [qosTc, Bool.and_true, Bool.and_false, Bool.not_true,
      Bool.not_false, if_true, if_false, Bool.false_eq_true]
    · rw [Mem.getD_congr h (by simp)]
    · rw [Mem.getD_congr h (by simp)]
  refine ⟨?_, ?_, ?_⟩
  · intro len pn
    rw [constructMicIv, constructMicIv, hqosTc, haddr2]
  · intro len
    rw [constructMicHeader1, constructMicHeader1, h0, h1, haddr]
  · rw [constructMicHeader2, constructMicHeader2, haddr3, h22]
    cases a4 <;> cases qc <;> simp only [Bool.and_true, Bool.and_false, Bool.not_true,
      Bool.not_false, if_true, if_false, Bool.false_eq_true]
    · rw [Mem.getD_congr h (by simp), UInt8.and_zero, UInt8.and_zero]
    · rw [Mem.read_congr h (by simp)]
    · rw [Mem.getD_congr h (i := 30) (by simp), Mem.read_congr h (by simp), UInt8.and_zero,
        UInt8.and_zero]

end

/-- Behind the second octet nothing changes. -/
theorem read_withProtected (pData : List UInt8) {off : Nat} (h : 2 ≤ off) (n : Nat) :
    Mem.read (withProtected pData) off n = Mem.read pData off n :=
  Mem.read_write_of_le (by simpa using h)

theorem getD_withProtected (pData : List UInt8) {i : Nat} (h : 2 ≤ i) :
    (withProtected pData).getD i 0 = pData.getD i 0 :=
  Mem.getD_write_of_le (by simpa using h)

theorem getD_withProtected_zero (pData : List UInt8) :
    (withProtected pData).getD 0 0 = pData.getD 0 0 :=
  Mem.getD_congr (Mem.read_write_front pData [pData.getD 1 0 ||| 0x40] 1) Nat.zero_lt_one

theorem getD_withProtected_one (pData : List UInt8) :
    (withProtected pData).getD 1 0 = pData.getD 1 0 ||| 0x40 := by
  have hread := Mem.read_write pData [pData.getD 1 0 ||| 0x40] 1
  rw [List.length_singleton, Mem.read_one] at hread
  exact List.head_eq_of_cons_eq hread

theorem withProtected_congr {mem mem' : List UInt8} {len : Nat} (hlen : 2 ≤ len)
    (h : Mem.read mem 0 len = Mem.read mem' 0 len) :
    Mem.read (withProtected mem) 0 len = Mem.read (withProtected mem') 0 len := by
  have hcut : ∀ m : List UInt8, Mem.read (withProtected m) 0 len =
      [m.getD 0 0] ++ ([m.getD 1 0 ||| 0x40] ++ Mem.read m 2 (len - 2)) := by
    intro m
    rw [show len = 1 + (1 + (len - 2)) by omega, Mem.read_add, Mem.read_add, Mem.read_one,
      Mem.read_one, getD_withProtected_zero, Nat.zero_add, getD_withProtected_one,
      read_withProtected m (Nat.le_refl 2), show 1 + (1 + (len - 2)) - 2 = len - 2 by omega]
  rw [hcut, hcut, Mem.getD_congr h (by omega), Mem.getD_congr h (i := 1) (by omega),
    Mem.read_congr h (by omega)]

/-- The second half of the function, over the memory that the first half leaves. -/
def softAesCheck (pData : List UInt8) (key : Octets 16) (pn : Octets 6) (payloadLen : Nat)
    (mem : List UInt8) : Option (List UInt8) :=
  let a4 := a4Exists pData
  let qc := qosSubtype pData
  let headerLen := softAesHeaderLen pData
  let trailMic :=
    (xor128 (softAesMode pData key pn).tagPad
      (.ofList 16 (Mem.read mem (headerLen + 8 + payloadLen) 8))).toList.take 8
  let hdr := withProtected mem
  let x := aes128k128d key (constructMicIv hdr a4 qc payloadLen pn)
  let x := aes128k128d key (xor128 x (constructMicHeader1 hdr headerLen))
  let x := aes128k128d key (xor128 x (constructMicHeader2 hdr a4 qc))
  let mic := (softAesMac key x (Mem.read hdr headerLen payloadLen)).toList.take 8
  if mic ≠ trailMic then none else some hdr

/-- **`RTMPSoftDecryptAES`** opens what is behind the CCMP header, puts it over it, and turns the
protected bit on. -/
theorem rtmpSoftDecryptAes_eq {pData : List UInt8} {n : Nat} {pWpaKey : CipherKey}
    (hkey : pWpaKey.keyLen ≠ 0) (hlen : softAesHeaderLen pData + 16 ≤ n)
    (hdata : n ≤ pData.length) (hmax : n < 2 ^ 32) :
    rtmpSoftDecryptAes pData n pWpaKey =
      ((softAesMode pData pWpaKey.key (ccmpPn (pData.drop (softAesHeaderLen pData)))).opened 8
        (Mem.read pData (softAesHeaderLen pData + 8) (n - softAesHeaderLen pData - 8))).map
          fun l => withProtected (Mem.write pData (softAesHeaderLen pData) l) := by
  have hH : softAesHeaderLen pData =
      24 + (if a4Exists pData then 6 else 0) + (if qosSubtype pData then 2 else 0) := rfl
  set H := softAesHeaderLen pData
  set pn := ccmpPn (pData.drop H) with hpn
  set M := softAesMode pData pWpaKey.key pn with hM
  obtain ⟨len, rfl⟩ : ∃ len, n = H + 16 + len := ⟨n - (H + 16), by omega⟩
  have hpayload : uintSub (uintSub (uintSub (H + 16 + len) H) 8) 8 = len := by
    have hheader : uintSub (H + 16 + len) H = len + 16 := by
      rw [uintSub_eq (by omega) hmax]
      omega
    have hccmp : uintSub (len + 16) 8 = len + 8 := uintSub_eq (by omega) (by omega)
    rw [hheader, hccmp]
    exact uintSub_eq (by omega) (by omega)
  have hsplit : Mem.read pData (H + 8) (H + 16 + len - H - 8) =
      Mem.read pData (H + 8) len ++ Mem.read pData (H + 8 + len) 8 := by
    rw [← Mem.read_add, show H + 16 + len - H - 8 = len + 8 by omega]
  set plain := Ccm.stream M.pads (Mem.read pData (H + 8) len) with hplain
  have hplainLen : plain.length = len := by rw [hplain, Ccm.length_stream, Mem.length_read]
  have hopened : M.opened 8 (Mem.read pData (H + 8) (H + 16 + len - H - 8)) =
      if M.tag 8 plain = Mem.read pData (H + 8 + len) 8 then some plain else none := by
    have hread : (Mem.read pData (H + 8) len).length = len := Mem.length_read _ _ _
    rw [Ccm.Mode.opened, Mem.length_read, show H + 16 + len - H - 8 - 8 = len by omega, hsplit,
      List.take_left' hread, List.drop_left' hread]
  have htext : softAesLast (M.pads (len / 16)) (H + 8 + 16 * (len / 16)) (len % 16)
      (Cipher.rounds (fun i mem => softAesBlock (M.pads i) (H + 8 + 16 * i) mem) pData
        (List.range (len / 16))) = Mem.write pData H plain := softAes_text (by omega) len
  set mem := Mem.write pData H plain with hmem
  have htrail : Mem.read mem (H + 8 + len) 8 = Mem.read pData (H + 8 + len) 8 :=
    Mem.read_write_of_le (by omega)
  -- the header in front of the text is the header of the frame, with the bit on
  have hheader : Mem.read (withProtected mem) 0 H = Mem.read (withProtected pData) 0 H :=
    withProtected_congr (by omega) (Mem.read_write_front pData plain H)
  obtain ⟨hiv, hheader1, hheader2⟩ := blocks_congr (hH ▸ hheader)
  have hbody : Mem.read (withProtected mem) H len = plain := by
    rw [read_withProtected mem (by omega), ← hplainLen]
    exact Mem.read_write pData plain H
  have htag : M.tag 8 plain = Mem.read pData (H + 8 + len) 8 ↔
      (xor128 M.tagPad (.ofList 16 (Mem.read pData (H + 8 + len) 8))).toList.take 8 =
        (M.mac plain).toList.take 8 := by
    rw [take_xor128 _ (Mem.length_read _ _ _) (by decide)]
    exact M.tag_eq_iff (by decide) plain (Mem.length_read _ _ _)
  have hmac : softAesMac pWpaKey.key (softAesChain pData pWpaKey.key pn len) plain =
      M.mac plain := by
    rw [softAesMac_eq, ← hplainLen]
    rfl
  have hcheck : softAesCheck pData pWpaKey.key pn len mem =
      if (M.mac plain).toList.take 8 ≠
        (xor128 M.tagPad (.ofList 16 (Mem.read pData (H + 8 + len) 8))).toList.take 8 then none
      else some (withProtected mem) := by
    rw [← hmac, softAesChain, ← hiv, ← hheader1, ← hheader2, ← hbody, ← htrail]
    rfl
  have hunfold : rtmpSoftDecryptAes pData (H + 16 + len) pWpaKey =
      softAesCheck pData pWpaKey.key pn len mem := by
    rw [rtmpSoftDecryptAes, if_neg hkey, ← htext]
    dsimp only
    rw [hpayload]
    rfl
  rw [hunfold, hcheck, hopened]
  by_cases hok : M.tag 8 plain = Mem.read pData (H + 8 + len) 8
  · rw [if_pos hok, if_neg (not_not_intro (htag.1 hok).symm)]
    rfl
  · rw [if_neg hok, if_pos fun h => hok (htag.2 h.symm)]
    rfl

/-! ## 5. The two modes -/

theorem aes128k128d_eq (key : Octets 16) : aes128k128d key = rtAesEncrypt key :=
  funext fun block =>
    (aes128k128d_eq_cipher key block).trans (rtAesEncrypt_eq_cipher key block).symm

theorem rtAesEncrypt_injective (key : Octets 16) : Function.Injective (rtAesEncrypt key) :=
  Function.LeftInverse.injective (rtAesDecrypt_rtAesEncrypt key)

theorem get_ofList_fourteen {l : List UInt8} (hl : l.length = 14) :
    (Octets.ofList 16 l).get 15 = 0 := by
  match l, hl with
  | [_, _, _, _, _, _, _, _, _, _, _, _, _, _], _ => rfl

/-- The last two octets of a block. -/
theorem ofList_fourteen {l : List UInt8} (hl : l.length = 14) :
    (Octets.ofList 16 l = Octets.ofList 16 (l ++ [0, 0])) ∧
      (∀ a b, ((Octets.ofList 16 l).set 14 a).set 15 b = Octets.ofList 16 (l ++ [a, b])) ∧
      ∀ b, (Octets.ofList 16 l).set 15 ((Octets.ofList 16 l).get 15 + b) =
        Octets.ofList 16 (l ++ [0, b]) := by
  rw [get_ofList_fourteen hl]
  simp only [UInt8.zero_add]
  match l, hl with
  | [_, _, _, _, _, _, _, _, _, _, _, _, _, _], _ =>
    exact ⟨rfl, fun a b => rfl, fun b => rfl⟩

/-- The associated data of a data frame, as far as the first header block goes. -/
def aadFront (frame : List UInt8) : List UInt8 :=
  [frame.getD 0 0 &&& 0x8f, (frame.getD 1 0 &&& 0xc7) ||| 0x40] ++ Mem.read frame 4 12

/-- The associated data in the second. -/
def aadBack (frame : List UInt8) : List UInt8 :=
  Mem.read frame 16 6 ++ [frame.getD 22 0 &&& 0x0f, 0x00] ++
    (if a4Exists frame then Mem.read frame 24 6 else []) ++
    (if qosSubtype frame then
      [frame.getD (if a4Exists frame then 30 else 24) 0 &&& 0x0f, 0x00] else [])

theorem length_aadFront (frame : List UInt8) : (aadFront frame).length = 14 := by
  simp [aadFront]

theorem length_aadBack (frame : List UInt8) :
    (aadBack frame).length = softAesHeaderLen frame - 16 := by
  rw [aadBack, softAesHeaderLen]
  cases a4Exists frame <;> cases qosSubtype frame <;> simp

theorem constructMicHeader1_withProtected {frame : List UInt8}
    (hbit : frame.getD 0 0 &&& 0x40 = 0) :
    constructMicHeader1 (withProtected frame) (softAesHeaderLen frame) =
      .ofList 16 (ccmAadLead (aadFront frame ++ aadBack frame).length ++ aadFront frame) := by
  have hlength : (aadFront frame ++ aadBack frame).length = softAesHeaderLen frame - 2 := by
    rw [List.length_append, length_aadFront, length_aadBack, softAesHeaderLen]
    omega
  have hheaderLen : 24 ≤ softAesHeaderLen frame ∧ softAesHeaderLen frame ≤ 32 := by
    rw [softAesHeaderLen]
    split_ifs <;> decide
  have hlow : UInt8.ofNat ((softAesHeaderLen frame - 2) % 256) =
    UInt8.ofNat (softAesHeaderLen frame - 2) := UInt8.ofNat_mod_size
  have hmute : frame.getD 0 0 &&& 0xcf = frame.getD 0 0 &&& 0x8f := by
    have hsplit : ∀ b : UInt8, b &&& 0xcf = (b &&& 0x8f) ||| (b &&& 0x40) := fun b =>
      UInt8.toBitVec_inj.1 (BitVec.and_or_distrib_left (x := b.toBitVec) (y := 0x8f) (z := 0x40))
    rw [hsplit, hbit, UInt8.or_zero]
  have hprotected : (frame.getD 1 0 ||| 0x40) &&& 0xc7 = (frame.getD 1 0 &&& 0xc7) ||| 0x40 :=
    UInt8.toBitVec_inj.1 BitVec.and_or_distrib_right
  rw [constructMicHeader1, hlow, getD_withProtected_zero, getD_withProtected_one, hmute, hprotected,
    read_withProtected _ (by decide), hlength, ccmAadLead, if_pos (by omega)]
  rfl

theorem constructMicHeader2_withProtected (frame : List UInt8) :
    constructMicHeader2 (withProtected frame) (a4Exists frame) (qosSubtype frame) =
      .ofList 16 (aadBack frame) := by
  rw [constructMicHeader2, aadBack]
  simp only [read_withProtected frame (show 2 ≤ 16 by decide),
    read_withProtected frame (show 2 ≤ 24 by decide),
    getD_withProtected frame (show 2 ≤ 22 by decide),
    getD_withProtected frame (show 2 ≤ 24 by decide),
    getD_withProtected frame (show 2 ≤ 30 by decide), UInt8.and_zero]
  cases a4Exists frame <;> cases qosSubtype frame <;> simp

section

variable {frame : List UInt8} (hdata : isDataFrame frame = true) (key : Octets 16) (pn : Octets 6)
include hdata

theorem qcExists_eq : qcExists frame = qosSubtype frame := by
  rw [qcExists, hdata, Bool.true_and]

/-- The nonce is what stands in the blocks in front of the count. -/
theorem rtmpConstructCcmpNonce_eq :
    rtmpConstructCcmpNonce frame (a4Exists frame) (qcExists frame) pn =
      qosTc frame (a4Exists frame) (qosSubtype frame) ::
        (Mem.read frame 10 6 ++ pn.toList.reverse) := by
  rw [rtmpConstructCcmpNonce, qcExists_eq hdata, qosTc]

/-- The counter of `AES_CCM_Decrypt` is that of `construct_ctr_preload`, of its low octet alone. -/
theorem ccmpMode_pads (i : Nat) :
    (ccmpMode frame key pn).pads i = aes128k128d key
      (constructCtrPreload frame (a4Exists frame) (qosSubtype frame) pn ((i + 1) % 256)) := by
  have hcount : UInt8.ofNat ((i + 1) % 256) = UInt8.ofNat (i + 1) := UInt8.ofNat_mod_size
  obtain ⟨-, -, hset⟩ := ofList_fourteen (l := 0x01 ::
    rtmpConstructCcmpNonce frame (a4Exists frame) (qcExists frame) pn) (by simp)
  change ccmPads key (ccmBlockCtr _) i = _
  rw [ccmPads, ccmBlockCtr, length_rtmpConstructCcmpNonce, aes128k128d_eq, constructCtrPreload,
    Nat.div_eq_of_lt (Nat.mod_lt _ (by decide)), Nat.mod_mod, hcount]
  refine congrArg (rtAesEncrypt key) ((hset _).trans ?_)
  rw [rtmpConstructCcmpNonce_eq hdata]
  simp

theorem ccmpMode_tagPad : (ccmpMode frame key pn).tagPad = (softAesMode frame key pn).tagPad := by
  obtain ⟨hzero, -, -⟩ := ofList_fourteen (l := 0x01 ::
    rtmpConstructCcmpNonce frame (a4Exists frame) (qcExists frame) pn) (by simp)
  change rtAesEncrypt key (ccmBlockCtr _) = aes128k128d key (constructCtrPreload _ _ _ _ 0)
  rw [ccmBlockCtr, length_rtmpConstructCcmpNonce, aes128k128d_eq, constructCtrPreload]
  refine congrArg (rtAesEncrypt key) (hzero.trans ?_)
  rw [rtmpConstructCcmpNonce_eq hdata]
  simp

/-- The pads agree as far as the count has one octet. -/
theorem softAesMode_pads {i : Nat} (hi : i < 255) :
    (softAesMode frame key pn).pads i = (ccmpMode frame key pn).pads i := by
  rw [ccmpMode_pads hdata, Nat.mod_eq_of_lt (by omega)]
  rfl

/-- The pad behind them is another: one counter is at 256, the other at 0 again. -/
theorem softAesMode_pads_255 :
    (softAesMode frame key pn).pads 255 ≠ (ccmpMode frame key pn).pads 255 := by
  intro h
  rw [ccmpMode_pads hdata, aes128k128d_eq] at h
  have hctr : constructCtrPreload frame (a4Exists frame) (qosSubtype frame) pn 256 =
      constructCtrPreload frame (a4Exists frame) (qosSubtype frame) pn 0 := by
    refine rtAesEncrypt_injective key (Eq.trans ?_ h)
    rw [← aes128k128d_eq]
    rfl
  have hoctet : ∀ c, (constructCtrPreload frame (a4Exists frame) (qosSubtype frame) pn c).toList =
      [0x01, qosTc frame (a4Exists frame) (qosSubtype frame)] ++ Mem.read frame 10 6 ++
        pn.toList.reverse ++ [UInt8.ofNat (c / 256), UInt8.ofNat (c % 256)] := by
    intro c
    rw [constructCtrPreload, Octets.toList_ofList, List.takeD_eq_take 0 (by simp),
      List.take_of_length_le (by simp)]
  have hlast := congrArg List.Vector.toList hctr
  rw [hoctet, hoctet, List.append_cancel_left_eq] at hlast
  exact absurd hlast (by decide)

/-- The associated data are in the two header blocks, behind their length. -/
theorem rtmpConstructCcmpAad_eq :
    rtmpConstructCcmpAad frame (isDataFrame frame) (a4Exists frame) (qcExists frame) =
      aadFront frame ++ aadBack frame := by
  have haddr : Mem.read frame 4 18 = Mem.read frame 4 12 ++ Mem.read frame 16 6 :=
    Mem.read_add frame 4 12 6
  rw [rtmpConstructCcmpAad, qcExists_eq hdata, hdata, haddr, aadFront, aadBack]
  cases a4Exists frame <;> cases qosSubtype frame <;> simp

theorem constructMicIv_withProtected (payloadLen : Nat) :
    constructMicIv (withProtected frame) (a4Exists frame) (qosSubtype frame) payloadLen pn =
      ccmControlBlock payloadLen (aadFront frame ++ aadBack frame).length lenCcmpMic
        (rtmpConstructCcmpNonce frame (a4Exists frame) (qcExists frame) pn) := by
  obtain ⟨-, hset, -⟩ := ofList_fourteen (l := 0x59 ::
    rtmpConstructCcmpNonce frame (a4Exists frame) (qcExists frame) pn) (by simp)
  have hmod : UInt8.ofNat (payloadLen % 256) = UInt8.ofNat payloadLen := UInt8.ofNat_mod_size
  have hqosTc : qosTc (withProtected frame) (a4Exists frame) (qosSubtype frame) =
      qosTc frame (a4Exists frame) (qosSubtype frame) := by
    rw [qosTc, qosTc, getD_withProtected _ (by decide), getD_withProtected _ (by decide)]
  have hflags : (if (aadFront frame ++ aadBack frame).length > 0 then (0x40 : UInt8) else 0) =
      0x40 := if_pos (by rw [List.length_append, length_aadFront]; omega)
  rw [ccmControlBlock, length_rtmpConstructCcmpNonce, hflags, constructMicIv, hmod, hqosTc,
    read_withProtected _ (by decide)]
  refine Eq.trans ?_ (hset _ _).symm
  rw [rtmpConstructCcmpNonce_eq hdata]
  simp

/-- **The chains agree** where the bit that only one of them mutes is clear. -/
theorem softAesMode_mac (hbit : frame.getD 0 0 &&& 0x40 = 0) (l : List UInt8) :
    (softAesMode frame key pn).mac l = (ccmpMode frame key pn).mac l := by
  have haad : ccmAadLoop key (rtAesEncrypt key (constructMicIv (withProtected frame)
      (a4Exists frame) (qosSubtype frame) l.length pn)) (aadFront frame ++ aadBack frame) =
      softAesChain frame key pn l.length := by
    have hback : 0 < (aadBack frame).length ∧ (aadBack frame).length ≤ 16 := by
      rw [length_aadBack, softAesHeaderLen]
      split_ifs <;> decide
    have hfront := length_aadFront frame
    have hlength : (aadFront frame ++ aadBack frame).length = 14 + (aadBack frame).length := by
      rw [List.length_append, hfront]
    have hlead : (ccmAadLead (aadFront frame ++ aadBack frame).length).length = 2 := by
      rw [ccmAadLead, if_pos (by omega)]
      rfl
    rw [ccmAadLoop, if_neg (by omega)]
    dsimp only
    rw [hlead, show min (min (aadFront frame ++ aadBack frame).length 16) (16 - 2) = 14 by omega,
      List.take_left' hfront, List.drop_left' hfront, Ccm.chain_short _ _ hback.1 hback.2,
      ← constructMicHeader1_withProtected hbit, ← constructMicHeader2_withProtected,
      ← xor128_eq_add, ← xor128_eq_add, ← aes128k128d_eq]
    rfl
  change Ccm.chain (aes128k128d key) (softAesChain frame key pn l.length) l =
    aesCcmMac key l _ (rtmpConstructCcmpAad _ _ _ _) _
  rw [aesCcmMac, rtmpConstructCcmpAad_eq hdata, ← constructMicIv_withProtected hdata, haad, aes128k128d_eq]

end

/-! ## 6. Two decryptions of a frame -/

/-- A QoS frame with the Order bit has an HT control field of 4 octets. -/
def htControl (frame : List UInt8) : Bool :=
  qosSubtype frame && (frame.getD 1 0 &&& 0x80 ≠ 0 : Bool)

/-- Where the CCMP header of a data frame stands. -/
def macHeaderLen (frame : List UInt8) : Nat :=
  softAesHeaderLen frame + (if htControl frame then 4 else 0)

/-- The text of a frame of `n` octets by `RTMPSoftDecryptAES`: it stands behind the header, and
there are 16 octets less of it. -/
def softAesPlain (frame : List UInt8) (n : Nat) (key : CipherKey) : Option (List UInt8) :=
  (rtmpSoftDecryptAes frame n key).map fun mem =>
    Mem.read mem (softAesHeaderLen frame) (n - softAesHeaderLen frame - 16)

/-- The text by `RTMPSoftDecryptCCMP`, which is told where the header ends. -/
def softCcmpPlain (frame : List UInt8) (n : Nat) (key : CipherKey) : Option (List UInt8) :=
  let hdrLen := macHeaderLen frame
  (rtmpSoftDecryptCcmp frame key (frame.drop hdrLen) (UInt16.ofNat (n - hdrLen))).map
    fun (pData, dataLen) => Mem.read pData 0 dataLen.toNat

/-- Both refuse the frame, or both take it and have the same text. -/
def SoftDecryptsAgree (frame : List UInt8) (n : Nat) (key : CipherKey) : Prop :=
  softAesPlain frame n key = softCcmpPlain frame n key

/-- A data frame of `n` octets with room for the header, the CCMP header and the MIC. -/
structure IsCcmpData (frame : List UInt8) (n : Nat) : Prop where
  data : isDataFrame frame = true
  long : macHeaderLen frame + 16 ≤ n
  inMem : n ≤ frame.length
  short : n - macHeaderLen frame < 2 ^ 16

theorem map_opened {M : Ccm.Mode} {n : Nat} {c : List UInt8} {f : List UInt8 → List UInt8}
    (h : ∀ l : List UInt8, l.length = c.length - n → f l = l) :
    (M.opened n c).map f = M.opened n c := by
  cases hopened : M.opened n c with
  | none => rfl
  | some l => rw [Option.map_some, h l (Ccm.Mode.length_of_opened hopened)]

theorem softDecryptsAgree_of_keyLen {frame : List UInt8} {n : Nat} {key : CipherKey}
    (hkey : key.keyLen = 0) : SoftDecryptsAgree frame n key := by
  rw [SoftDecryptsAgree, softAesPlain, softCcmpPlain, rtmpSoftDecryptAes, rtmpSoftDecryptCcmp,
    if_pos hkey, if_pos hkey]
  rfl

section

variable {frame : List UInt8} {n : Nat} {key : CipherKey}

theorem IsCcmpData.softAesPlain_eq (h : IsCcmpData frame n) (hkey : key.keyLen ≠ 0) :
    softAesPlain frame n key =
      (softAesMode frame key.key (ccmpPn (frame.drop (softAesHeaderLen frame)))).opened 8
        (Mem.read frame (softAesHeaderLen frame + 8) (n - softAesHeaderLen frame - 8)) := by
  have hlong := h.long
  have hshort := h.short
  have hheader : 2 ≤ softAesHeaderLen frame ∧ softAesHeaderLen frame ≤ 32 := by
    rw [softAesHeaderLen]
    split_ifs <;> decide
  have hmac : macHeaderLen frame ≤ softAesHeaderLen frame + 4 := by
    rw [macHeaderLen]
    split_ifs <;> omega
  have hle : softAesHeaderLen frame ≤ macHeaderLen frame := Nat.le_add_right _ _
  rw [softAesPlain, rtmpSoftDecryptAes_eq hkey (by omega) h.inMem (by omega), Option.map_map]
  refine map_opened fun l hl => ?_
  rw [Mem.length_read] at hl
  rw [Function.comp_apply, read_withProtected _ hheader.1, Nat.sub_sub _ _ 16,
    show n - (softAesHeaderLen frame + 16) = l.length by omega]
  exact Mem.read_write _ _ _

theorem IsCcmpData.softCcmpPlain_eq (h : IsCcmpData frame n) (hkey : key.keyLen ≠ 0) :
    softCcmpPlain frame n key =
      (ccmpMode frame key.key (ccmpPn (frame.drop (macHeaderLen frame)))).opened 8
        (Mem.read frame (macHeaderLen frame + 8) (n - macHeaderLen frame - 8)) := by
  have hlong := h.long
  have hsize : (UInt16.ofNat (n - macHeaderLen frame)).toNat = n - macHeaderLen frame := by
    rw [UInt16.toNat_ofNat', Nat.mod_eq_of_lt h.short]
  have hread : Mem.read (frame.drop (macHeaderLen frame)) 8 (n - macHeaderLen frame - 8) =
      Mem.read frame (macHeaderLen frame + 8) (n - macHeaderLen frame - 8) := by
    rw [Mem.read, Mem.read, List.drop_drop]
  rw [softCcmpPlain]
  dsimp only
  rw [rtmpSoftDecryptCcmp_eq frame _ hkey (by omega), hsize, hread, Option.map_map]
  refine map_opened fun l hl => ?_
  have hshort := h.short
  have hlen : (UInt16.ofNat l.length).toNat = l.length := by
    rw [UInt16.toNat_ofNat', Nat.mod_eq_of_lt (by rw [hl, Mem.length_read]; omega)]
  rw [Function.comp_apply, hlen]
  exact Mem.read_write _ _ _

theorem macHeaderLen_eq (h : htControl frame = false) :
    macHeaderLen frame = softAesHeaderLen frame := by
  rw [macHeaderLen, h]
  rfl

/-- With an HT control field the two texts differ in length. -/
theorem IsCcmpData.ne_of_htControl (h : IsCcmpData frame n) (hkey : key.keyLen ≠ 0)
    (hht : htControl frame = true) {l : List UInt8} (haes : softAesPlain frame n key = some l) :
    softCcmpPlain frame n key ≠ some l := by
  intro hccmp
  rw [h.softAesPlain_eq hkey] at haes
  rw [h.softCcmpPlain_eq hkey] at hccmp
  have hlong := h.long
  have hlen := Ccm.Mode.length_of_opened haes
  have hlen' := Ccm.Mode.length_of_opened hccmp
  have hmac : macHeaderLen frame = softAesHeaderLen frame + 4 := by
    rw [macHeaderLen, hht]
    rfl
  rw [Mem.length_read] at hlen hlen'
  omega

/-- Behind 255 blocks the two texts differ. -/
theorem IsCcmpData.ne_of_long (h : IsCcmpData frame n) (hkey : key.keyLen ≠ 0)
    (hht : htControl frame = false) (hlong : 4096 ≤ n - macHeaderLen frame - 16) {l : List UInt8}
    (haes : softAesPlain frame n key = some l) : softCcmpPlain frame n key ≠ some l := by
  intro hccmp
  rw [h.softAesPlain_eq hkey, ← macHeaderLen_eq hht] at haes
  rw [h.softCcmpPlain_eq hkey] at hccmp
  obtain ⟨htext, -⟩ := (Ccm.Mode.opened_eq_some_iff _ _ _ _).1 haes
  obtain ⟨htext', -⟩ := (Ccm.Mode.opened_eq_some_iff _ _ _ _).1 hccmp
  refine softAesMode_pads_255 h.data key.key (ccmpPn (frame.drop (macHeaderLen frame)))
    (Ccm.pads_eq_of_stream_eq (htext.trans htext'.symm) ?_)
  rw [List.length_take, Mem.length_read]
  omega

/-- **The two agree** in the same header, with the same bits of the subtype, up to 255 blocks. -/
theorem IsCcmpData.agree (h : IsCcmpData frame n) (hht : htControl frame = false)
    (hbit : frame.getD 0 0 &&& 0x40 = 0) (hshort : n - macHeaderLen frame - 16 ≤ 4080) :
    SoftDecryptsAgree frame n key := by
  by_cases hkey : key.keyLen = 0
  · exact softDecryptsAgree_of_keyLen hkey
  · rw [SoftDecryptsAgree, h.softAesPlain_eq hkey, h.softCcmpPlain_eq hkey, macHeaderLen_eq hht]
    rw [macHeaderLen_eq hht] at hshort
    refine Ccm.Mode.opened_congr (fun i hi => ?_) (ccmpMode_tagPad h.data _ _).symm
      fun l _ => softAesMode_mac h.data _ _ hbit l
    rw [Mem.length_read] at hi
    exact softAesMode_pads h.data _ _ (by omega)

end

/-- **When the two decryptions of a data frame agree.** Without a key they do. They do in a frame
without an HT control field, with bit 6 of the frame control clear and up to 255 blocks of text;
with an HT control field, or with 256 whole blocks, only where both refuse the frame. -/
theorem softDecryptsAgree_cases (frame : List UInt8) (n : Nat) (key : CipherKey)
    (h : IsCcmpData frame n) :
    (key.keyLen = 0 ∨ (htControl frame = false ∧ frame.getD 0 0 &&& 0x40 = 0 ∧
        n - macHeaderLen frame - 16 ≤ 4080) → SoftDecryptsAgree frame n key) ∧
      (key.keyLen ≠ 0 ∧ (htControl frame = true ∨ 4096 ≤ n - macHeaderLen frame - 16) →
        (SoftDecryptsAgree frame n key ↔
          softAesPlain frame n key = none ∧ softCcmpPlain frame n key = none)) := by
  constructor
  · rintro (hkey | ⟨hht, hbit, hshort⟩)
    · exact softDecryptsAgree_of_keyLen hkey
    · exact h.agree hht hbit hshort
  · rintro ⟨hkey, hwhere⟩
    have hne : ∀ l, softAesPlain frame n key = some l → softCcmpPlain frame n key ≠ some l := by
      intro l haes
      cases hht : htControl frame with
      | true => exact h.ne_of_htControl hkey hht haes
      | false =>
        rcases hwhere with hhtTrue | hlong
        · exact absurd hhtTrue (by rw [hht]; decide)
        · exact h.ne_of_long hkey hht hlong haes
    constructor
    · intro hagree
      cases haes : softAesPlain frame n key with
      | none => exact ⟨rfl, hagree.symm.trans haes⟩
      | some l => exact absurd (hagree.symm.trans haes) (hne l haes)
    · rintro ⟨haes, hccmp⟩
      exact haes.trans hccmp.symm

namespace Example

/-- The frame of the test vector with 4096 octets of text, as `RTMPSoftEncryptCCMP` makes it. -/
def longText : List UInt8 := List.replicate 4096 0

def longFrame : List UInt8 :=
  ccmpHdr ++ (rtmpConstructCcmpHdr 0 ccmpTestPn ++
    (ccmpMode ccmpHdr ccmpTk.key ccmpTestPn).sealed 8 longText)

theorem isCcmpData_longFrame : IsCcmpData longFrame 4136 := by
  have hmac : macHeaderLen longFrame = 24 := rfl
  have hlen : longFrame.length = 4136 := by
    rw [longFrame, List.length_append, List.length_append, Ccm.Mode.length_sealed _ (by decide),
      longText, List.length_replicate]
    rfl
  exact ⟨rfl, by rw [hmac]; decide, by rw [hlen], by rw [hmac]; decide⟩

/-- A text of 4096 octets is deciphered by one and refused or garbled by the other. -/
theorem not_agree_longText :
    IsCcmpData longFrame 4136 ∧ softCcmpPlain longFrame 4136 ccmpTk = some longText ∧
      ¬ SoftDecryptsAgree longFrame 4136 ccmpTk := by
  have hkey : ccmpTk.keyLen ≠ 0 := by decide
  have hmode : ccmpMode longFrame ccmpTk.key ccmpTestPn = ccmpMode ccmpHdr ccmpTk.key ccmpTestPn :=
    rfl
  have hpn : ccmpPn (longFrame.drop 24) = ccmpTestPn := rfl
  have hbody : Mem.read longFrame 32 4104 =
      (ccmpMode ccmpHdr ccmpTk.key ccmpTestPn).sealed 8 longText := by
    refine Mem.read_middle (ccmpHdr ++ rtmpConstructCcmpHdr 0 ccmpTestPn) [] ?_ rfl ?_
    · rw [List.append_nil, List.append_assoc]
      rfl
    · rw [Ccm.Mode.length_sealed _ (by decide), longText, List.length_replicate]
  have hccmp : softCcmpPlain longFrame 4136 ccmpTk = some longText := by
    rw [isCcmpData_longFrame.softCcmpPlain_eq hkey]
    change (ccmpMode longFrame ccmpTk.key (ccmpPn (longFrame.drop 24))).opened 8
      (Mem.read longFrame 32 4104) = _
    rw [hpn, hmode, hbody, Ccm.Mode.opened_sealed _ (by decide)]
  refine ⟨isCcmpData_longFrame, hccmp, fun hagree => ?_⟩
  exact isCcmpData_longFrame.ne_of_long hkey rfl (by decide) (hagree.trans hccmp) hccmp

/-- The frame of the test vector without text, of any MIC. -/
def emptyFrame : List UInt8 :=
  ccmpHdr ++ (rtmpConstructCcmpHdr 0 ccmpTestPn ++ List.replicate 8 0)

theorem agree_emptyText :
    SoftDecryptsAgree emptyFrame 40 ccmpTk ∧
      (SoftDecryptsAgree longFrame 4136 ccmpTk ↔
        softAesPlain longFrame 4136 ccmpTk = none ∧ softCcmpPlain longFrame 4136 ccmpTk = none) :=
  ⟨(softDecryptsAgree_cases emptyFrame 40 ccmpTk ⟨rfl, by decide, by decide, by decide⟩).1
      (Or.inr ⟨rfl, by decide, by decide⟩),
    (softDecryptsAgree_cases longFrame 4136 ccmpTk isCcmpData_longFrame).2
      ⟨by decide, Or.inr (by rw [show macHeaderLen longFrame = 24 from rfl])⟩⟩

end Example

end Mt7601.Crypt
