/-
# Data frames on their way out: `TX_BLK`, the cipher, the 802.11 header

What the frame types of the transmit path share: what `RTMP_FillTxBlkInfo` makes of a packet, the
cipher `STAFindCipherAlgorithm` chooses for it, and the 802.11 header that
`STABuildCommon802_11Header` builds.

A multicast packet has no entry and goes another way (`TxPktClassification`): here every packet is
one for a station that has an entry.
-/
import Mt7601.Data.AmsduTx
import Mt7601.Wpa.Defs

namespace Mt7601.Data

open Wpa (AuthMode WepStatus CipherAlg PortSecured)

/-! ## 1. `HEADER_802_11` as it is filled in -/

/-- `SUBTYPE_DATA` -/
def subtypeData : Fin 16 := 0
/-- `SUBTYPE_QDATA` -/
def subtypeQdata : Fin 16 := 8

/-- `HEADER_802_11`; the fields are as wide as the bit fields of the source. -/
structure WifiHdr where
  type : Fin 4 := 0
  subType : Fin 16 := 0
  toDs : Bool := false
  frDs : Bool := false
  moreFrag : Bool := false
  retry : Bool := false
  pwrMgmt : Bool := false
  moreData : Bool := false
  wep : Bool := false
  order : Bool := false
  duration : UInt16 := 0
  addr1 : Octets macAddrLen := .zero macAddrLen
  addr2 : Octets macAddrLen := .zero macAddrLen
  addr3 : Octets macAddrLen := .zero macAddrLen
  frag : Fin 16 := 0
  sequence : Fin 4096 := 0

namespace WifiHdr

/-- The first octet of the frame control field. -/
def fc0 (h : WifiHdr) : UInt8 := UInt8.ofNat (h.type.val * 4 + h.subType.val * 16)

/-- The second one: one bit for each flag. -/
def fc1 (h : WifiHdr) : UInt8 :=
  UInt8.ofNat (h.toDs.toNat + h.frDs.toNat * 2 + h.moreFrag.toNat * 4 + h.retry.toNat * 8 +
    h.pwrMgmt.toNat * 16 + h.moreData.toNat * 32 + h.wep.toNat * 64 + h.order.toNat * 128)

/-- The header in memory. -/
def octets (h : WifiHdr) : List UInt8 :=
  [h.fc0, h.fc1, UInt8.ofNat h.duration.toNat, UInt8.ofNat (h.duration.toNat / 256)] ++
    h.addr1.toList ++ h.addr2.toList ++ h.addr3.toList ++
    [UInt8.ofNat (h.frag.val + h.sequence.val % 16 * 16), UInt8.ofNat (h.sequence.val / 16)]

/-- What stands in front of the sequence control field. -/
def front (h : WifiHdr) : List UInt8 :=
  [h.fc0, h.fc1, UInt8.ofNat h.duration.toNat, UInt8.ofNat (h.duration.toNat / 256)] ++
    h.addr1.toList ++ h.addr2.toList ++ h.addr3.toList

theorem length_front (h : WifiHdr) : h.front.length = 22 := by
  simp only [front, List.length_append, List.Vector.toList_length]
  rfl

@[simp] theorem length_octets (h : WifiHdr) : h.octets.length = length80211 := by
  have hfront := h.length_front
  rw [front] at hfront
  rw [octets, List.length_append, hfront]
  rfl

section

variable (h : WifiHdr) (rest : List UInt8)

theorem getD_fc1 : (h.octets ++ rest).getD 1 0 = h.fc1 := rfl

/-- The two octets behind the addresses. -/
theorem getD_sequenceControl :
    (h.octets ++ rest).getD 22 0 = UInt8.ofNat (h.frag.val + h.sequence.val % 16 * 16) ∧
      (h.octets ++ rest).getD 23 0 = UInt8.ofNat (h.sequence.val / 16) := by
  have hfront := h.length_front
  have hmem : h.octets ++ rest = h.front ++
      (UInt8.ofNat (h.frag.val + h.sequence.val % 16 * 16) ::
        UInt8.ofNat (h.sequence.val / 16) :: rest) := by
    simp [octets, front]
  constructor
  · simp [hmem, List.getD_eq_getElem?_getD, hfront]
  · simp [hmem, List.getD_eq_getElem?_getD, List.getElem?_append_right, hfront]

/-- A flag of the second octet. -/
theorem testBit_fc1 :
    h.fc1.toNat.testBit 2 = h.moreFrag ∧ h.fc1.toNat.testBit 7 = h.order := by
  rw [fc1]
  cases h.toDs <;> cases h.frDs <;> cases h.moreFrag <;> cases h.retry <;> cases h.pwrMgmt <;>
    cases h.moreData <;> cases h.wep <;> cases h.order <;> exact ⟨rfl, rfl⟩

/-- **What is filled in is what the receiver reads.** -/
@[simp] theorem moreFrag_octets : Header.moreFrag (h.octets ++ rest) = h.moreFrag := by
  rw [Header.moreFrag, Header.fcBit, getD_fc1]
  exact h.testBit_fc1.1

@[simp] theorem frag_octets : Header.frag (h.octets ++ rest) = h.frag.val := by
  have hfrag := h.frag.isLt
  rw [Header.frag, (h.getD_sequenceControl rest).1, UInt8.toNat_ofNat']
  omega

@[simp] theorem sequence_octets : Header.sequence (h.octets ++ rest) = h.sequence.val := by
  have hfrag := h.frag.isLt
  have hseq := h.sequence.isLt
  rw [Header.sequence, (h.getD_sequenceControl rest).1, (h.getD_sequenceControl rest).2,
    UInt8.toNat_ofNat', UInt8.toNat_ofNat']
  omega

end

end WifiHdr

/-! ## 2. Adapter, entry and packet -/

/-- `MODE_CCK` to `MODE_HTGREENFIELD`; the source compares them as numbers. -/
inductive PhyMode
  | cck
  | ofdm
  | htMix
  | htGreenfield
deriving DecidableEq, Repr

instance : LE PhyMode := ⟨fun a b => a.ctorIdx ≤ b.ctorIdx⟩
instance (a b : PhyMode) : Decidable (a ≤ b) := inferInstanceAs (Decidable (a.ctorIdx ≤ b.ctorIdx))

/-- `HTTRANSMIT_SETTING` -/
structure HtTransmitSetting where
  mcs : Fin 128
  /-- `BW_40` -/
  bw40 : Bool
  shortGi : Bool
  stbc : Fin 4
  mode : PhyMode
deriving DecidableEq, Repr

/-- `MMPS_STATIC`, `MMPS_DYNAMIC`, `MMPS_RSV` and `MMPS_ENABLE` -/
inductive Mmps
  | static
  | dynamic
  | rsv
  | enable
deriving DecidableEq, Repr

/-- An entry of `SharedKey[BSS0]`, without the key. -/
structure SharedKey where
  cipherAlg : CipherAlg
  keyLen : Nat
deriving DecidableEq

/-- `RTMP_ADAPTER`, the fields that are read here. -/
structure TxAdapter where
  bssid : Octets macAddrLen
  currentAddress : Octets macAddrLen
  /-- `StaCfg.BssType == BSS_INFRA` -/
  bssInfra : Bool
  /-- `fOP_STATUS_ADHOC_ON` -/
  adhocOn : Bool
  bApsdForcePowerSave : Bool
  /-- `StaCfg.Psm == PWR_SAVE` -/
  psm : Bool
  authMode : AuthMode
  pairCipher : WepStatus
  groupCipher : WepStatus
  portSecured : PortSecured
  wpaSupplicantUp : Bool
  ieee8021X : Bool
  defaultKeyId : Fin 4
  sharedKey : Fin 4 → SharedKey
  ackPolicy : Fin 4 → UInt8
  /-- `fOP_STATUS_WMM_INUSED` -/
  wmmInUsed : Bool
  bRdg : Bool
  bMimoPsEnable : Bool
  txBaSize : UInt8
  /-- `AddHTInfo.AddHtInfo.RecomWidth` -/
  recomWidth : Bool
  /-- `MacTab.Content[MCAST_WCID].HTPhyMode` -/
  mcastHtPhyMode : HtTransmitSetting

/-- `MAC_TABLE_ENTRY`, what is set from outside. -/
structure TxEntry where
  wcid : UInt8
  htPhyMode : HtTransmitSetting
  bAutoTxRateSwitch : Bool
  mmpsMode : Mmps
  mpduDensity : Fin 8
  noBaDataCountDown : UInt8
  /-- `BAOriEntry[BAOriWcidArray[UserPriority]].BAWinSize` -/
  baWinSize : Fin 8 → UInt8
  /-- `fCLIENT_STATUS_WMM_CAPABLE` -/
  wmmCapable : Bool
  rdgCapable : Bool
  piggybackCapable : Bool
  ralinkChipset : Bool
  /-- `IS_HT_STA` -/
  htSta : Bool
  /-- `IS_HT_RATE` -/
  htRate : Bool

/-- The sequence numbers an entry counts. -/
structure TxSeqs where
  txSeq : Fin 8 → Fin 4096
  nonQosDataSeq : Fin 4096

/-- A packet of a transmit queue, with its flags. -/
structure QueuedPacket extends TxPacket where
  userPriority : Fin 8
  /-- `QueIdx`, the queue it was taken from -/
  queIdx : Fin 4
  eapol : Bool
  clearEapFrame : Bool
  lowRate : Bool
  moreData : Bool

/-- `pSrcBufHeader`, the destination address of the packet. -/
def QueuedPacket.da (p : QueuedPacket) : Octets macAddrLen :=
  .ofList macAddrLen p.pSrcBufHeader

/-- `*pSrcBufVA & 0x01` -/
def QueuedPacket.groupDa (p : QueuedPacket) : Bool :=
  (p.pSrcBufHeader.getD 0 0).toNat.testBit 0

/-! ## 3. `TX_BLK` -/

/-- The frame types of a packet that has an entry. -/
inductive TxFrameType
  | legacy
  | ampdu
  | amsdu
  | ralink
  | frag
deriving DecidableEq, Repr

/-- `IFS_HTTXOP`, `IFS_PIFS`, `IFS_SIFS` and `IFS_BACKOFF` -/
inductive Ifs
  | htTxop
  | pifs
  | sifs
  | backoff
deriving DecidableEq, Repr

/-- `TX_BLK`, what `RTMP_FillTxBlkInfo` puts into it. -/
structure TxBlk where
  pPacket : QueuedPacket
  txFrameType : TxFrameType
  wcid : UInt8
  userPriority : Fin 8
  frameGap : Ifs
  pTransmit : HtTransmitSetting
  ackRequired : Bool
  allowFrag : Bool
  wmm : Bool
  moreData : Bool
  forceNonQos : Bool
  clearEapFrame : Bool
  piggyBack : Bool

/-- A packet that is to go out at the low rate, in a frame of its own, to a peer that takes part in
reverse direction grants. -/
def TxEntry.lowRateNonQos (entry : TxEntry) (ad : TxAdapter) : Bool :=
  entry.htSta && entry.ralinkChipset && (ad.bRdg && entry.rdgCapable)

/-- `RTMP_FillTxBlkInfo`, for a `TX_BLK` that was cleared. -/
def rtmpFillTxBlkInfo (ad : TxAdapter) (entry : TxEntry) (txFrameType : TxFrameType)
    (pPacket : QueuedPacket) : TxBlk :=
  let lowRate := txFrameType = .legacy ∧ pPacket.lowRate
  let nonQos := lowRate ∧ entry.lowRateNonQos ad
  { pPacket := pPacket
    txFrameType := txFrameType
    wcid := entry.wcid
    userPriority := pPacket.userPriority
    frameGap := .htTxop
    pTransmit := if lowRate then ad.mcastHtPhyMode else entry.htPhyMode
    ackRequired := ad.ackPolicy pPacket.queIdx = 0
    allowFrag := txFrameType = .frag
    wmm := ad.wmmInUsed ∧ entry.wmmCapable ∧ ¬ nonQos
    moreData := txFrameType = .legacy ∧ pPacket.moreData
    forceNonQos := nonQos
    clearEapFrame := pPacket.clearEapFrame
    piggyBack := txFrameType = .legacy ∧ ¬ entry.htRate ∧ entry.piggybackCapable }

/-! ## 4. The cipher -/

/-- The cipher in use for the kind of address. -/
def cipherOf (ad : TxAdapter) (pPacket : QueuedPacket) : WepStatus :=
  if pPacket.groupDa ∧ ad.adhocOn then ad.groupCipher else ad.pairCipher

/-- `KeyIdx`, where one is chosen. -/
def keyIdxOf (ad : TxAdapter) (pTxBlk : TxBlk) : Option (Fin 4) :=
  let cipher := cipherOf ad pTxBlk.pPacket
  if pTxBlk.pPacket.eapol then
    if ¬ pTxBlk.clearEapFrame ∧ (ad.sharedKey 0).cipherAlg ≠ .none ∧ (ad.sharedKey 0).keyLen ≠ 0 then
      some 0
    else none
  else if cipher = .wepEnabled then some ad.defaultKeyId
  else if cipher = .encryption2Enabled ∨ cipher = .encryption3Enabled then
    if pTxBlk.pPacket.groupDa ∧ ad.adhocOn then some ad.defaultKeyId
    else if (ad.sharedKey 0).keyLen ≠ 0 then some 0
    else some ad.defaultKeyId
  else none

/-- `STAFindCipherAlgorithm` -/
def staFindCipherAlgorithm (ad : TxAdapter) (pTxBlk : TxBlk) : CipherAlg :=
  let cipher := cipherOf ad pTxBlk.pPacket
  match keyIdxOf ad pTxBlk with
  | none => .none
  | some keyIdx =>
    if ad.adhocOn ∧ cipher = .encryption3Enabled ∧ ad.authMode = .wpa2Psk ∧
        ad.portSecured = .secured then .aes
    else if cipher = .wepDisabled ∨ (ad.sharedKey keyIdx).keyLen = 0 then .none
    else if ad.wpaSupplicantUp ∧ cipher = .wepEnabled ∧ ad.ieee8021X ∧
        ad.portSecured = .notSecured then .none
    else (ad.sharedKey keyIdx).cipherAlg

/-! ## 5. The 802.11 header -/

/-- The bit `PwrMgmt`; `RtmpPktPmBitCheck` is `Psm == PWR_SAVE` here. -/
def pwrMgmtOf (ad : TxAdapter) : Bool :=
  ad.bApsdForcePowerSave || ad.psm

/-- The sequence number of the frame, and the counters after it. -/
def TxSeqs.take (seqs : TxSeqs) (pTxBlk : TxBlk) : Fin 4096 × TxSeqs :=
  if pTxBlk.forceNonQos then
    (seqs.nonQosDataSeq, { seqs with nonQosDataSeq := seqs.nonQosDataSeq + 1 })
  else
    let up := pTxBlk.userPriority
    (seqs.txSeq up, { seqs with txSeq := Function.update seqs.txSeq up (seqs.txSeq up + 1) })

/-- `STABuildCommon802_11Header` -/
def staBuildCommon80211Header (ad : TxAdapter) (seqs : TxSeqs) (pTxBlk : TxBlk)
    (cipherAlg : CipherAlg) : WifiHdr × TxSeqs :=
  let da := pTxBlk.pPacket.da
  let seq := seqs.take pTxBlk
  let wifiHdr : WifiHdr :=
    { type := Fin.ofNat 4 btypeData
      subType := if pTxBlk.wmm then subtypeQdata else subtypeData
      sequence := seq.1
      moreData := pTxBlk.moreData }
  let wifiHdr :=
    if ad.bssInfra then
      { wifiHdr with addr1 := ad.bssid, addr2 := ad.currentAddress, addr3 := da, toDs := true }
    else if ad.adhocOn then
      { wifiHdr with addr1 := da, addr2 := ad.currentAddress, addr3 := ad.bssid, toDs := false }
    else wifiHdr
  let wifiHdr := { wifiHdr with wep := cipherAlg ≠ CipherAlg.none }
  ({ wifiHdr with pwrMgmt := pwrMgmtOf ad }, seq.2)

end Mt7601.Data
