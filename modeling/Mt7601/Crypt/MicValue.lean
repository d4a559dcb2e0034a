/-
# The Michael code of a packet

`RTMPTkipAppend`, `RTMPTkipGetMIC`, `RTMPCalculateMICValue` and `RTMPTkipCompareMICValue` of
`common/cmm_tkip.c`, with the words as wide as an `ULONG` is.

On words wider than 32 bits the shifts and the sign of an `int` leave bits above; nothing below
depends on them (`mix_spec`). So the state is that of the standard for the octets appended so far, cut
into calls in whichever way (`Absorbed.append`), and what the sender calculates the receiver accepts.
-/
import Mt7601.Crypt.Tkip
import Mt7601.Lib.Michael

namespace Mt7601.Crypt

open Wpa (MacAddr CipherKey)

/-! ## 1. The low half of a word -/

/-- The 32 bits the standard knows of. -/
def low {w : Nat} (x : BitVec w) : BitVec 32 := x.setWidth 32

section

variable {w : Nat}

@[simp] theorem low_zero : low (0 : BitVec w) = 0 := by simp [low]

theorem low_xor (x y : BitVec w) : low (x ^^^ y) = low x ^^^ low y := BitVec.setWidth_xor

theorem low_or (x y : BitVec w) : low (x ||| y) = low x ||| low y := BitVec.setWidth_or

theorem low_add (hw : 32 ≤ w) (x y : BitVec w) : low (x + y) = low x + low y :=
  BitVec.setWidth_add x y hw

theorem low_shiftLeft (hw : 32 ≤ w) (x : BitVec w) (n : Nat) : low (x <<< n) = low x <<< n :=
  BitVec.setWidth_shiftLeft_of_le hw

theorem getLsbD_low (x : BitVec w) (i : Nat) :
    (low x).getLsbD i = (decide (i < 32) && x.getLsbD i) :=
  BitVec.getLsbD_setWidth 32 x i

/-- Bits behind a mask of 32 do not come down. -/
theorem low_and_shiftRight (x : BitVec w) {c : BitVec w} (hc : c.toNat < 2 ^ 32) (n : Nat) :
    low ((x &&& c) >>> n) = (low x &&& low c) >>> n := by
  refine BitVec.eq_of_getLsbD_eq fun i hi => ?_
  have hhigh : 32 ≤ n + i → c.getLsbD (n + i) = false := fun hle =>
    Nat.testBit_lt_two_pow (hc.trans_le (Nat.pow_le_pow_right (by decide) hle))
  rw [getLsbD_low, BitVec.getLsbD_ushiftRight, BitVec.getLsbD_ushiftRight, BitVec.getLsbD_and,
    BitVec.getLsbD_and, getLsbD_low, getLsbD_low]
  rcases Nat.lt_or_ge (n + i) 32 with hlt | hge
  · simp [hi, hlt]
  · simp [hhigh hge, Nat.not_lt.mpr hge]

/-- `(1UL << n) - 1` -/
theorem getLsbD_mask (hw : 32 ≤ w) {n : Nat} (hn : n < 32) (i : Nat) :
    (((1 <<< n : Nat) : BitVec w) - 1).getLsbD i = decide (i < n) := by
  have hlt : 2 ^ n < 2 ^ w := Nat.pow_lt_pow_right (by decide) (by omega)
  have hone : (1 : BitVec w).toNat = 1 := by
    rw [BitVec.ofNat_eq_ofNat, BitVec.toNat_ofNat, Nat.mod_eq_of_lt (Nat.one_lt_two_pow (by omega))]
  have hshift : ((1 <<< n : Nat) : BitVec w).toNat = 2 ^ n := by
    rw [BitVec.natCast_eq_ofNat, BitVec.toNat_ofNat, Nat.one_shiftLeft, Nat.mod_eq_of_lt hlt]
  have hsub : (((1 <<< n : Nat) : BitVec w) - 1).toNat = 2 ^ n - 1 := by
    rw [BitVec.toNat_sub_of_le, hshift, hone]
    rw [BitVec.le_def, hshift, hone]
    exact Nat.one_le_two_pow
  rw [BitVec.getLsbD, hsub, Nat.testBit_two_pow_sub_one]

/-- **`ROL32` rotates the low half**, whatever stands above it. -/
theorem low_rol32 (hw : 32 ≤ w) (a : BitVec w) {n : Nat} (hn : n < 32) :
    low (rol32 a n) = (low a).rotateLeft n := by
  refine BitVec.eq_of_getLsbD_eq fun i hi => ?_
  have hin : i < w := hi.trans_le hw
  rw [getLsbD_low, rol32, BitVec.getLsbD_or, BitVec.getLsbD_and, getLsbD_mask hw hn,
    BitVec.getLsbD_rotateLeft, Nat.mod_eq_of_lt hn, getLsbD_low, getLsbD_low]
  rcases Nat.lt_or_ge i n with hlt | hge
  · simp [hi, hlt, show 32 - n + i < 32 by omega]
  · simp [hi, hin, Nat.not_lt.mpr hge, show i - n < 32 by omega, show i - n < w by omega]

theorem low_ror32 (hw : 32 ≤ w) (a : BitVec w) : low (ror32 a 2) = (low a).rotateRight 2 := by
  rw [ror32, low_rol32 hw a (by decide)]
  exact BitVec.or_comm _ _

/-- A shifted octet, its sign left out. -/
theorem low_charShift (hw : 32 ≤ w) (uChar : UInt8) (n : Nat) :
    low (charShift w uChar n) = uChar.toBitVec.setWidth 32 <<< n := by
  refine BitVec.eq_of_getLsbD_eq fun i hi => ?_
  rw [getLsbD_low, charShift, BitVec.getLsbD_signExtend]
  simp [hi, hi.trans_le hw]

/-- **A full word is mixed as the standard has it.** -/
theorem mix_spec (hw : 32 ≤ w) (s : TkipKeyInfo w) :
    (low s.mix.l, low s.mix.r) = Michael.step (low s.l, low s.r) (low s.m) := by
  have hmaskHigh : low (0xff00ff00 : BitVec w) = 0xff00ff00#32 := by
    rw [low, BitVec.ofNat_eq_ofNat, BitVec.setWidth_ofNat_of_le hw]
  have hmaskLow : low (0x00ff00ff : BitVec w) = 0x00ff00ff#32 := by
    rw [low, BitVec.ofNat_eq_ofNat, BitVec.setWidth_ofNat_of_le hw]
  have hsmall : (0xff00ff00 : BitVec w).toNat < 2 ^ 32 :=
    (Nat.mod_le _ _).trans_lt (by decide)
  have hand : ∀ x y : BitVec w, low (x &&& y) = low x &&& low y := fun _ _ => BitVec.setWidth_and
  simp only [TkipKeyInfo.mix, low_add hw, low_xor, low_or, low_and_shiftRight _ hsmall,
    low_shiftLeft hw, hand, hmaskHigh, hmaskLow, low_rol32 hw _ (show 17 < 32 by decide),
    low_rol32 hw _ (show 3 < 32 by decide), low_ror32 hw]
  rfl

/-- The octets of a word are those of its low half. -/
theorem rtmpTkipPutUInt32_eq (hw : 32 ≤ w) (val : BitVec w) :
    rtmpTkipPutUInt32 val = LeWord.octets (low val) := by
  have hoctet : ∀ n ≤ 24, (val >>> n &&& 0xff).setWidth 8 = (low val >>> n).setWidth 8 := by
    intro n hn
    refine BitVec.eq_of_getLsbD_eq fun i hi => ?_
    have hmask : (0xff : BitVec w).getLsbD i = true := by
      have hval : (0xff : BitVec w).toNat = 2 ^ 8 - 1 := by
        rw [BitVec.ofNat_eq_ofNat, BitVec.toNat_ofNat]
        exact Nat.mod_eq_of_lt ((show 2 ^ 8 - 1 < 2 ^ 32 by decide).trans_le
          (Nat.pow_le_pow_right (by decide) hw))
      rw [BitVec.getLsbD, hval, Nat.testBit_two_pow_sub_one, decide_eq_true hi]
    simp only [BitVec.getLsbD_setWidth, hi, BitVec.getLsbD_and, BitVec.getLsbD_ushiftRight, hmask,
      getLsbD_low, show n + i < 32 by omega, decide_true, Bool.true_and, Bool.and_true]
  have hzero := hoctet 0 (by decide)
  rw [BitVec.ushiftRight_zero, BitVec.ushiftRight_zero] at hzero
  rw [rtmpTkipPutUInt32, LeWord.octets, hzero, hoctet 8 (by decide), hoctet 16 (by decide),
    hoctet 24 (by decide)]

theorem low_rtmpTkipGetUInt32 (hw : 32 ≤ w) (a b c d : UInt8) (l : List UInt8) :
    low (rtmpTkipGetUInt32 w (a :: b :: c :: d :: l)) = LeWord.word [a, b, c, d] := by
  have hget : rtmpTkipGetUInt32 w (a :: b :: c :: d :: l) = charShift w a 0 ||| charShift w b 8 |||
      charShift w c 16 ||| charShift w d 24 := rfl
  rw [hget, LeWord.word_four, low_or, low_or, low_or, low_charShift hw, low_charShift hw, low_charShift hw,
    low_charShift hw, BitVec.shiftLeft_zero]

/-! ## 2. Octets appended -/

/-- What `pTkip` holds once `message` has been appended under a key: the code of its whole words,
and the octets of the last one. -/
structure Absorbed (key : List UInt8) (pTkip : TkipKeyInfo w) (message : List UInt8) : Prop where
  lr : (low pTkip.l, low pTkip.r) =
    Michael.absorb (Michael.start key) (message.take (4 * (message.length / 4)))
  m : low pTkip.m = LeWord.word (message.drop (4 * (message.length / 4)))
  nBytesInM : pTkip.nBytesInM = message.length % 4

theorem absorbed_rtmpTkipSetMicKey (hw : 32 ≤ w) :
    ∀ key : Octets 8, Absorbed key.toList (rtmpTkipSetMicKey w key.toList) []
  | ⟨[a, b, c, d, e, f, g, h], _⟩ =>
    { lr := Prod.ext (low_rtmpTkipGetUInt32 hw a b c d [e, f, g, h])
        (low_rtmpTkipGetUInt32 hw e f g h [])
      m := low_zero
      nBytesInM := rfl }

/-- One octet more. -/
theorem Absorbed.appendByte (hw : 32 ≤ w) {key message : List UInt8} {pTkip : TkipKeyInfo w}
    (h : Absorbed key pTkip message) (uChar : UInt8) :
    Absorbed key (rtmpTkipAppendByte pTkip uChar) (message ++ [uChar]) := by
  set done := message.take (4 * (message.length / 4)) with hdone
  set pending := message.drop (4 * (message.length / 4)) with hpending
  have hsplit : message = done ++ pending := (List.take_append_drop _ _).symm
  have hdoneLen : done.length = 4 * (message.length / 4) := by
    rw [hdone, List.length_take]
    omega
  have hpendingLen : pending.length = message.length % 4 := by
    rw [hpending, List.length_drop]
    omega
  have hm : low (pTkip.m ||| charShift w uChar (8 * pTkip.nBytesInM)) =
      LeWord.word (pending ++ [uChar]) := by
    rw [low_or, low_charShift hw, h.m, h.nBytesInM, ← hpendingLen, LeWord.word_concat]
  rw [rtmpTkipAppendByte]
  dsimp only
  rcases Nat.lt_or_ge (message.length % 4) 3 with hlt | hge
  · -- the word is not full yet
    have hdiv : (message ++ [uChar]).length / 4 = message.length / 4 := by
      rw [List.length_append, List.length_singleton]
      omega
    rw [if_neg (by rw [h.nBytesInM]; omega)]
    refine ⟨?_, ?_, ?_⟩
    · rw [hdiv, List.take_append_of_le_length (by omega)]
      exact h.lr
    · rw [hdiv, List.drop_append_of_le_length (by omega)]
      exact hm
    · rw [List.length_append, List.length_singleton]
      dsimp only
      rw [h.nBytesInM]
      omega
  · have hlen : (message ++ [uChar]).length = message.length + 1 := by simp
    have hwhole : 4 * ((message ++ [uChar]).length / 4) = (message ++ [uChar]).length := by
      rw [hlen]
      omega
    have hfour : (pending ++ [uChar]).length = 4 := by
      rw [List.length_append, List.length_singleton]
      omega
    rw [if_pos (by rw [h.nBytesInM]; omega)]
    refine ⟨?_, ?_, ?_⟩
    · rw [hwhole, List.take_length, hsplit, List.append_assoc,
        Michael.absorb_append ⟨_, hdoneLen⟩, Michael.absorb_four _ hfour, ← hm, ← h.lr]
      exact mix_spec hw _
    · rw [hwhole, List.drop_length]
      exact low_zero
    · rw [hlen]
      exact (by omega : 0 = (message.length + 1) % 4)

/-- **Whichever way the message is cut**, what has been appended is all that counts. -/
theorem Absorbed.append (hw : 32 ≤ w) {key message : List UInt8} {pTkip : TkipKeyInfo w}
    (h : Absorbed key pTkip message) (pSrc : List UInt8) :
    Absorbed key (rtmpTkipAppend pTkip pSrc) (message ++ pSrc) := by
  induction pSrc generalizing message pTkip with
  | nil => rwa [List.append_nil]
  | cons b l ih =>
    have hstep := ih (h.appendByte hw b)
    rwa [List.append_assoc, List.singleton_append] at hstep

theorem Absorbed.appendAll (hw : 32 ≤ w) {key message : List UInt8} {pTkip : TkipKeyInfo w}
    (h : Absorbed key pTkip message) (parts : List (List UInt8)) :
    Absorbed key (parts.foldl rtmpTkipAppend pTkip) (message ++ parts.flatten) := by
  induction parts generalizing message pTkip with
  | nil => rwa [List.flatten_nil, List.append_nil]
  | cons part parts ih =>
    have hstep := ih (h.append hw part)
    rwa [List.append_assoc, ← List.flatten_cons] at hstep

/-- Zeros up to the end of the word. -/
theorem Absorbed.zeroes (hw : 32 ≤ w) {key message : List UInt8} {pTkip : TkipKeyInfo w}
    (h : Absorbed key pTkip message) {fuel : Nat} (hfuel : 4 ≤ message.length % 4 + fuel) :
    Absorbed key (tkipZeroes fuel pTkip)
      (message ++ List.replicate ((4 - message.length % 4) % 4) 0) := by
  induction fuel generalizing message pTkip with
  | zero => omega
  | succ fuel ih =>
    rw [tkipZeroes, h.nBytesInM]
    by_cases hzero : message.length % 4 = 0
    · rw [if_neg (not_not_intro hzero), hzero, List.replicate_zero, List.append_nil]
      exact h
    · have hlen : (message ++ [(0 : UInt8)]).length = message.length + 1 := by simp
      rcases Nat.lt_or_ge (message.length % 4) 3 with hlt | hge
      · have hnext := ih (h.appendByte hw 0) (by omega)
        have hcount : (4 - (message.length + 1) % 4) % 4 + 1 = (4 - message.length % 4) % 4 := by
          have hone : (message.length + 1) % 4 = message.length % 4 + 1 := by omega
          have hcases : message.length % 4 = 1 ∨ message.length % 4 = 2 := by omega
          rw [hone]
          rcases hcases with hr | hr <;> rw [hr]
        rw [if_pos hzero]
        rw [hlen, List.append_assoc, List.singleton_append, ← List.replicate_succ, hcount] at hnext
        exact hnext
      · have hfull := h.appendByte hw 0
        have hnone : (rtmpTkipAppendByte pTkip 0).nBytesInM = 0 := by
          rw [hfull.nBytesInM, hlen]
          omega
        have hstop : tkipZeroes fuel (rtmpTkipAppendByte pTkip 0) = rtmpTkipAppendByte pTkip 0 := by
          cases fuel with
          | zero => rfl
          | succ fuel => rw [tkipZeroes, if_neg (not_not_intro hnone)]
        have hlast : message.length % 4 = 3 := by omega
        rw [if_pos hzero, hstop, hlast]
        exact hfull

/-- **`RTMPTkipGetMIC` is the code of the standard** for the octets that were appended. -/
theorem Absorbed.getMic (hw : 32 ≤ w) {key message : List UInt8} {pTkip : TkipKeyInfo w}
    (h : Absorbed key pTkip message) : rtmpTkipGetMic pTkip = Michael.code key message := by
  have hpad := h.append hw [0x5a, 0, 0, 0, 0]
  have hlen : (message ++ [(0x5a : UInt8), 0, 0, 0, 0]).length = message.length + 5 := by simp
  have hfour : 4 ≤ (message ++ [(0x5a : UInt8), 0, 0, 0, 0]).length % 4 + 4 :=
    Nat.le_add_left _ _
  have hend := hpad.zeroes hw hfour
  have hpadded : message ++ [(0x5a : UInt8), 0, 0, 0, 0] ++
      List.replicate ((4 - (message ++ [(0x5a : UInt8), 0, 0, 0, 0]).length % 4) % 4) 0 =
        Michael.padded message := by
    rw [hlen, Michael.padded, show 7 - message.length % 4 =
      4 + (4 - (message.length + 5) % 4) % 4 by omega, List.replicate_add]
    simp [List.replicate]
  rw [hpadded] at hend
  have hwhole : 4 * ((Michael.padded message).length / 4) = (Michael.padded message).length :=
    Nat.mul_div_cancel' (Michael.four_dvd_length_padded message)
  have hlr := hend.lr
  rw [hwhole, List.take_length] at hlr
  rw [rtmpTkipGetMic, Michael.code, ← hlr, rtmpTkipPutUInt32_eq hw, rtmpTkipPutUInt32_eq hw]

end

/-! ## 3. The sender and the receiver -/

/-- `MIN_NET_DEVICE_FOR_APCLI` -/
def minNetDeviceForApcli : Nat := 0x20
/-- `MAX_APCLI_NUM` -/
def maxApcliNum : Nat := 1
/-- `MCAST_WCID` -/
def mcastWcid : UInt8 := 0

/-- `RTMP_ADAPTER`, what `RTMPCalculateMICValue` looks up in it. -/
structure MicAdapter where
  opModeAp : Bool
  apCliCurrentAddress : Nat → MacAddr
  macTabAddr : UInt8 → MacAddr

/-- `PNDIS_PACKET`: `pSrcBufVA` with `SrcBufLen` octets, and what stands in its control block. -/
structure MicPacket where
  pSrc : List UInt8
  wcid : UInt8
  userPriority : UInt8

/-- `vlan_offset` -/
def MicPacket.vlanOffset (pPacket : MicPacket) : Nat :=
  if (pPacket.pSrc.getD 12 0).toNat <<< 8 + (pPacket.pSrc.getD 13 0).toNat = 0x8100 then 4 else 0

/-- The addresses `RTMPInitMICEngine` is called with. -/
def micAddresses (pAd : MicAdapter) (pPacket : MicPacket) (apidx : UInt8) : MacAddr × MacAddr :=
  let da := Octets.ofList 6 (Mem.read pPacket.pSrc 0 6)
  let sa := Octets.ofList 6 (Mem.read pPacket.pSrc 6 6)
  if minNetDeviceForApcli ≤ apidx.toNat ∧ apidx.toNat - minNetDeviceForApcli < maxApcliNum ∧
      pAd.opModeAp then
    (da, pAd.apCliCurrentAddress (apidx.toNat - minNetDeviceForApcli))
  else if pPacket.wcid ≠ mcastWcid ∧ pPacket.pSrc.getD 0 0 &&& 0x01 ≠ 0 ∧ pAd.opModeAp then
    (pAd.macTabAddr pPacket.wcid, sa)
  else (da, sa)

/-- The LLC encapsulation and the protocol type, where there is an encapsulation. -/
def micAppendEncap {w : Nat} (pTkip : TkipKeyInfo w) (pPacket : MicPacket) :
    Option (Octets 6) → Checked (TkipKeyInfo w)
  | none => .ok pTkip
  | some pEncap => do
    Checked.access pPacket.pSrc.length (12 + pPacket.vlanOffset) 2
    return rtmpTkipAppend (rtmpTkipAppend pTkip pEncap.toList)
      (Mem.read pPacket.pSrc (12 + pPacket.vlanOffset) 2)

/-- `RTMPCalculateMICValue`: `PrivateInfo.Tx.MIC`. -/
def rtmpCalculateMicValue (w : Nat) (pAd : MicAdapter) (pPacket : MicPacket)
    (pEncap : Option (Octets 6)) (pKey : CipherKey) (apidx : UInt8) : Checked (List UInt8) := do
  -- the addresses and the type
  Checked.access pPacket.pSrc.length 0 14
  let addresses := micAddresses pAd pPacket apidx
  let pTkip := rtmpInitMicEngine w addresses.1.toList addresses.2.toList pPacket.userPriority
    pKey.txMic.toList
  let pTkip ← micAppendEncap pTkip pPacket pEncap
  let srcBufLen ← Checked.sub pPacket.pSrc.length (14 + pPacket.vlanOffset)
  return rtmpTkipGetMic
    (rtmpTkipAppend pTkip (Mem.read pPacket.pSrc (14 + pPacket.vlanOffset) srcBufLen))

/-- `RTMPTkipCompareMICValue` -/
def rtmpTkipCompareMicValue (w : Nat) (pSrc : List UInt8) (pDA pSA : MacAddr)
    (pMicKey : Octets 8) (userPriority : UInt8) (len : Nat) : Bool :=
  let pTkip := rtmpTkipSetMicKey w pMicKey.toList
  let pTkip := rtmpTkipAppend pTkip pDA.toList
  let pTkip := rtmpTkipAppend pTkip pSA.toList
  let pTkip := rtmpTkipAppend pTkip [userPriority, 0, 0, 0]
  let pTkip := rtmpTkipAppend pTkip (Mem.read pSrc 0 len)
  rtmpTkipGetMic pTkip = Mem.read pSrc len 8

/-- The encapsulation that a frame carries in front of the text of a packet, with the type. -/
def MicPacket.encap (pPacket : MicPacket) : Option (Octets 6) → List UInt8
  | none => []
  | some pEncap => pEncap.toList ++ Mem.read pPacket.pSrc (12 + pPacket.vlanOffset) 2

/-- What the frame of a packet carries: the encapsulation, and all behind the header. -/
def MicPacket.data (pPacket : MicPacket) (pEncap : Option (Octets 6)) : List UInt8 :=
  pPacket.encap pEncap ++ Mem.read pPacket.pSrc (14 + pPacket.vlanOffset)
    (pPacket.pSrc.length - (14 + pPacket.vlanOffset))

/-- The octets in front of the data that go into the code. -/
def micHeader (addresses : MacAddr × MacAddr) (userPriority : UInt8) : List UInt8 :=
  addresses.1.toList ++ addresses.2.toList ++ [userPriority, 0, 0, 0]

section

variable {w : Nat}

theorem micAppendEncap_eq (pTkip : TkipKeyInfo w) {pPacket : MicPacket}
    (pEncap : Option (Octets 6)) (hlen : 14 + pPacket.vlanOffset ≤ pPacket.pSrc.length) :
    micAppendEncap pTkip pPacket pEncap = .ok (rtmpTkipAppend pTkip (pPacket.encap pEncap)) := by
  cases pEncap with
  | none => rfl
  | some pEncap =>
    simp only [micAppendEncap, MicPacket.encap]
    rw [Checked.access_ok (by omega), Checked.ok_bind, rtmpTkipAppend, rtmpTkipAppend,
      rtmpTkipAppend, List.foldl_append]
    rfl

/-- What the sender calculates. -/
theorem rtmpCalculateMicValue_eq (hw : 32 ≤ w) {pAd : MicAdapter} {pPacket : MicPacket}
    {pEncap : Option (Octets 6)} {pKey : CipherKey} {apidx : UInt8}
    (hlen : 14 + pPacket.vlanOffset ≤ pPacket.pSrc.length) :
    rtmpCalculateMicValue w pAd pPacket pEncap pKey apidx =
      .ok (Michael.code pKey.txMic.toList
        (micHeader (micAddresses pAd pPacket apidx) pPacket.userPriority ++ pPacket.data pEncap)) := by
  have hstart := (absorbed_rtmpTkipSetMicKey hw pKey.txMic).append hw
    (micHeader (micAddresses pAd pPacket apidx) pPacket.userPriority)
  have hall := (hstart.append hw (pPacket.encap pEncap)).append hw
    (Mem.read pPacket.pSrc (14 + pPacket.vlanOffset)
      (pPacket.pSrc.length - (14 + pPacket.vlanOffset)))
  rw [List.nil_append, List.append_assoc] at hall
  rw [rtmpCalculateMicValue, Checked.access_ok (by omega), Checked.ok_bind]
  dsimp only
  rw [micAppendEncap_eq _ _ hlen, Checked.ok_bind, Checked.sub_ok (by omega)]
  exact congrArg Except.ok (hall.getMic hw)

theorem safe_rtmpCalculateMicValue_iff (hw : 32 ≤ w) {pAd : MicAdapter} {pPacket : MicPacket}
    {pEncap : Option (Octets 6)} {pKey : CipherKey} {apidx : UInt8} :
    Checked.Safe (rtmpCalculateMicValue w pAd pPacket pEncap pKey apidx) ↔
      14 + pPacket.vlanOffset ≤ pPacket.pSrc.length := by
  constructor
  · rintro ⟨mic, hmic⟩
    rw [rtmpCalculateMicValue, Checked.access_bind_eq_ok] at hmic
    obtain ⟨-, hmic⟩ := hmic
    dsimp only at hmic
    cases henc : micAppendEncap (rtmpInitMicEngine w (micAddresses pAd pPacket apidx).1.toList
        (micAddresses pAd pPacket apidx).2.toList pPacket.userPriority pKey.txMic.toList) pPacket
        pEncap with
    | error e =>
      rw [henc] at hmic
      exact nomatch hmic
    | ok pTkip =>
      rw [henc, Checked.ok_bind, Checked.sub_bind_eq_ok] at hmic
      exact hmic.1
  · intro hlen
    exact ⟨_, rtmpCalculateMicValue_eq hw hlen⟩

/-- What the receiver accepts. -/
theorem rtmpTkipCompareMicValue_iff (hw : 32 ≤ w) {pSrc : List UInt8} {pDA pSA : MacAddr}
    {pMicKey : Octets 8} {userPriority : UInt8} {len : Nat} :
    rtmpTkipCompareMicValue w pSrc pDA pSA pMicKey userPriority len = true ↔
      Michael.code pMicKey.toList (micHeader (pDA, pSA) userPriority ++ Mem.read pSrc 0 len) =
        Mem.read pSrc len 8 := by
  have hall := ((((absorbed_rtmpTkipSetMicKey hw pMicKey).append hw pDA.toList).append hw
    pSA.toList).append hw [userPriority, 0, 0, 0]).append hw (Mem.read pSrc 0 len)
  rw [List.nil_append] at hall
  rw [rtmpTkipCompareMicValue, decide_eq_true_iff, hall.getMic hw]
  rfl

/-- **Michael**: the octets appended, cut into calls in any way, have the code of the standard, for
each width of an `ULONG`; and the code of a packet is accepted with its data, by a receiver with words
of this or of another width. -/
theorem rtmpTkipGetMic_spec {w' : Nat} (hw : 32 ≤ w) (hw' : 32 ≤ w') :
    (∀ (pMicKey : Octets 8) (parts : List (List UInt8)),
      rtmpTkipGetMic (parts.foldl rtmpTkipAppend (rtmpTkipSetMicKey w pMicKey.toList)) =
        Michael.code pMicKey.toList parts.flatten) ∧
    ∀ (pAd : MicAdapter) (pPacket : MicPacket) (pEncap : Option (Octets 6)) (pKey : CipherKey)
      (apidx : UInt8),
      (Checked.Safe (rtmpCalculateMicValue w pAd pPacket pEncap pKey apidx) ↔
        14 + pPacket.vlanOffset ≤ pPacket.pSrc.length) ∧
      ∀ mic, rtmpCalculateMicValue w pAd pPacket pEncap pKey apidx = .ok mic →
        ∀ rest : List UInt8, rtmpTkipCompareMicValue w' (pPacket.data pEncap ++ mic ++ rest)
          (micAddresses pAd pPacket apidx).1 (micAddresses pAd pPacket apidx).2 pKey.txMic
          pPacket.userPriority (pPacket.data pEncap).length = true := by
  refine ⟨fun pMicKey parts => ?_, fun pAd pPacket pEncap pKey apidx => ⟨?_, ?_⟩⟩
  · have hall := (absorbed_rtmpTkipSetMicKey hw pMicKey).appendAll hw parts
    rw [List.nil_append] at hall
    exact hall.getMic hw
  · exact safe_rtmpCalculateMicValue_iff hw
  · intro mic hmic rest
    have hlen := (safe_rtmpCalculateMicValue_iff hw).mp ⟨mic, hmic⟩
    rw [rtmpCalculateMicValue_eq hw hlen] at hmic
    obtain rfl := Except.ok.inj hmic
    have htext : Mem.read (pPacket.data pEncap ++ Michael.code pKey.txMic.toList
        (micHeader (micAddresses pAd pPacket apidx) pPacket.userPriority ++ pPacket.data pEncap) ++
        rest) 0 (pPacket.data pEncap).length = pPacket.data pEncap := by
      rw [List.append_assoc]
      exact Mem.read_zero_of_append
    rw [rtmpTkipCompareMicValue_iff hw', htext]
    exact (Mem.read_middle _ rest (List.append_assoc _ _ _) rfl rfl).symm

namespace Example

/-- A packet of one octet with its encapsulation, sent with words of 64 bits and received with words
of 32, and a message cut in three. -/
theorem mic_accepted :
    rtmpTkipGetMic ([[1, 2, 3], [], [4, 5]].foldl rtmpTkipAppend
        (rtmpTkipSetMicKey 64 (Octets.zero 8).toList)) =
      Michael.code (Octets.zero 8).toList [1, 2, 3, 4, 5] ∧
    Checked.Safe (rtmpCalculateMicValue 64 ⟨false, fun _ => .zero 6, fun _ => .zero 6⟩
      ⟨[1, 2, 3, 4, 5, 6, 7, 8, 9, 10, 11, 12, 0x08, 0x00, 0x45], 1, 6⟩
      (some ⟨[0xaa, 0xaa, 3, 0, 0, 0], rfl⟩) {} 0) :=
  ⟨(@rtmpTkipGetMic_spec 64 32 (by decide) (by decide)).1 (.zero 8) [[1, 2, 3], [], [4, 5]],
    ((@rtmpTkipGetMic_spec 64 32 (by decide) (by decide)).2 _ _ _ _ _).1.mpr (by decide)⟩

end Example

end

end Mt7601.Crypt
