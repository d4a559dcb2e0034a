/-
# A received data frame in station mode

The descriptor words of a received frame, the checks of `RTMPCheckRxError`, and the front part of
`STAHandleRxDataFrame`: the tests that drop a frame, and the taking off of the 802.11 header, the
QoS control, the HT control and the padding. `pData` moves up and `DataSize`, an unsigned number of
16 bits, goes down, and no test compares the two.
-/
import Mt7601.Data.Defs
import Mt7601.Wpa.Defs

namespace Mt7601.Data

open Header
open Mt7601.Wpa (WepStatus CipherAlg)

/-! ## 1. Descriptors -/

/-- `RXINFO_STRUC`, as far as it is looked at. -/
structure RxInfo where
  ba : Bool
  u2m : Bool
  mcast : Bool
  bcast : Bool
  myBss : Bool
  crc : Bool
  cipherErr : Nat
  l2pad : Bool
  ampdu : Bool
  decrypted : Bool
deriving Repr

/-- A bit of the `RXINFO` word, least significant octet first. -/
def rxInfoBit (word : List UInt8) (i : Nat) : Bool :=
  (word.getD (i / 8) 0).toNat.testBit (i % 8)

def RxInfo.ofOctets (word : List UInt8) : RxInfo where
  ba := rxInfoBit word 0
  u2m := rxInfoBit word 4
  mcast := rxInfoBit word 5
  bcast := rxInfoBit word 6
  myBss := rxInfoBit word 7
  crc := rxInfoBit word 8
  cipherErr := (word.getD 1 0).toNat / 2 % 4
  l2pad := rxInfoBit word 14
  ampdu := rxInfoBit word 15
  decrypted := rxInfoBit word 16

/-- `RXWI_STRUC`, as far as it is looked at. -/
structure RxWi where
  /-- `RxWIWirelessCliID` -/
  wirelessCliId : Nat
  /-- `RxWIKeyIndex` -/
  keyIndex : Nat
  /-- `RxWIMPDUByteCnt`, 12 bits -/
  mpduByteCnt : UInt16
  /-- `RxWIPhyMode` -/
  phyMode : Nat
deriving Repr, DecidableEq

def RxWi.ofOctets (mem : List UInt8) : RxWi where
  wirelessCliId := (mem.getD 0 0).toNat
  keyIndex := (mem.getD 1 0).toNat % 4
  mpduByteCnt := UInt16.ofNat ((mem.getD 2 0).toNat + (mem.getD 3 0).toNat % 16 * 256)
  phyMode := (mem.getD 7 0).toNat / 64

/-! ## 2. The station -/

/-- `MAX_LEN_OF_MAC_TABLE` -/
def rxMaxLenOfMacTable : Nat := 32

/-- `MODE_OFDM` -/
def modeOfdm : Nat := 1

/-- What the receive path looks at of the adapter. -/
structure RxStation where
  /-- `StaCfg.BssType == BSS_INFRA` -/
  bssInfra : Bool
  /-- `MlmeAux.Bssid` -/
  mlmeAuxBssid : List UInt8
  /-- `CommonCfg.Bssid` -/
  bssid : List UInt8
  /-- `CurrentAddress` -/
  currentAddress : List UInt8
  /-- `MacTableLookup` finds an entry -/
  macTableLookup : List UInt8 → Bool
  /-- `fOP_STATUS_AGGREGATION_INUSED` -/
  aggregationInUsed : Bool
  /-- `MONITOR_ON` -/
  monitorOn : Bool
  /-- `ATE_ON` -/
  ateOn : Bool
  /-- `SharedKey[BSS0][..].CipherAlg` -/
  sharedKeyAlg : Nat → CipherAlg
  /-- `FragFrame.Sequence` -/
  fragSequence : Nat

/-- `MAX_AGGREGATION_SIZE` -/
def maxAggregationSize : Nat := 3840

/-- `RTMPCheckRxError` returns success. -/
def rtmpCheckRxError (ad : RxStation) (pHeader : List UInt8) (rxWi : RxWi) (rxInfo : RxInfo) :
    Bool :=
  if rxInfo.crc then false
  else if toDs pHeader then false
  else if maxAggregationSize < rxWi.mpduByteCnt.toNat then false
  else if rxInfo.decrypted ∧ rxInfo.cipherErr ≠ 0 then
    -- acceptable if the first fragment had no cipher error
    ad.sharedKeyAlg rxWi.keyIndex = .aes ∧ Header.sequence pHeader = ad.fragSequence
  else true

/-! ## 3. The front part of `STAHandleRxDataFrame` -/

/-- The tests in front of the headers: all but these are released. -/
def staAdmits (ad : RxStation) (pHeader : List UInt8) (rxWi : RxWi) (rxInfo : RxInfo) : Bool :=
  if frDs pHeader ∧ toDs pHeader then false
  else if rxInfo.myBss = false then false
  else if (subType pHeader).testBit 2 then false
  else if ad.bssInfra ∧ addr2 pHeader ≠ ad.mlmeAuxBssid then false
  else if ¬ ad.bssInfra ∧ addr3 pHeader ≠ ad.bssid then false
  else rxWi.wirelessCliId < rxMaxLenOfMacTable ∨ ad.macTableLookup (addr2 pHeader)

/-- The bits of `RX_BLK.Flags` that are set on the way. -/
structure RxFlags where
  amsdu : Bool
  aralink : Bool
  htc : Bool
  pad : Bool
  ampdu : Bool
  qos : Bool
  infra : Bool
deriving Repr, DecidableEq

/-- `RX_BLK` with its flags and descriptors. -/
structure RxData extends RxBlk where
  flags : RxFlags
  userPriority : Nat
  rxInfo : RxInfo
  rxWi : RxWi
deriving Repr

/-- The frame is a Ralink aggregate and not one with an HT control. -/
def isAralink (ad : RxStation) (rxWi : RxWi) : Bool :=
  rxWi.phyMode ≤ modeOfdm ∧ ad.aggregationInUsed

/-- The headers are taken off: 802.11, QoS, HTC, and the hardware padding, which `DataSize` does not
count. -/
def stripHeaders (ad : RxStation) (pHeader : List UInt8) (rxWi : RxWi) (rxInfo : RxInfo) :
    RxData :=
  let qos := (subType pHeader).testBit 3
  let qosControl := (pHeader.getD length80211 0).toNat
  let pData := length80211 + if qos then 2 else 0
  let dataSize := rxWi.mpduByteCnt - UInt16.ofNat length80211 - if qos then 2 else 0
  let htc := order pHeader && ! isAralink ad rxWi
  { pHeader := pHeader
    pData := pData + (if htc then 4 else 0) + (if rxInfo.l2pad then 2 else 0)
    dataSize := dataSize - if htc then 4 else 0
    flags :=
      { amsdu := qos && qosControl.testBit 7
        aralink := order pHeader && isAralink ad rxWi
        htc := htc
        pad := rxInfo.l2pad
        ampdu := rxInfo.ba
        qos := qos
        infra := ad.bssInfra }
    userPriority := if qos then qosControl % 16 else 0
    rxInfo := rxInfo
    rxWi := rxWi }

/-- The octets of headers that the bits of a frame announce. -/
def headersSize (ad : RxStation) (pHeader : List UInt8) (rxWi : RxWi) : Nat :=
  length80211 + (if (subType pHeader).testBit 3 then 2 else 0) +
    if order pHeader && ! isAralink ad rxWi then 4 else 0

/-- What was taken off and is counted by `DataSize`. -/
def RxData.takenOff (d : RxData) : Nat :=
  d.pData - if d.flags.pad then 2 else 0

section

variable {ad : RxStation} {pHeader : List UInt8} {rxWi : RxWi} {rxInfo : RxInfo}

@[simp] theorem takenOff_stripHeaders :
    (stripHeaders ad pHeader rxWi rxInfo).takenOff = headersSize ad pHeader rxWi := by
  -- the padding is added last and taken away first
  rw [RxData.takenOff]
  exact Nat.add_sub_cancel _ _

/-- **`DataSize` is what is left exactly if the frame is as long as its headers.** -/
theorem dataSize_stripHeaders_iff :
    headersSize ad pHeader rxWi + (stripHeaders ad pHeader rxWi rxInfo).dataSize.toNat =
        rxWi.mpduByteCnt.toNat ↔
      headersSize ad pHeader rxWi ≤ rxWi.mpduByteCnt.toNat := by
  have hlt := rxWi.mpduByteCnt.toNat_lt
  have hlen : length80211 = 24 := rfl
  have h24 : (UInt16.ofNat length80211).toNat = 24 := rfl
  have h2 : (2 : UInt16).toNat = 2 := rfl
  have h4 : (4 : UInt16).toNat = 4 := rfl
  have h0 : (0 : UInt16).toNat = 0 := rfl
  rw [stripHeaders, headersSize]
  dsimp only
  split_ifs <;> simp only [UInt16.toNat_sub, h24, h2, h4, h0] <;> omega

end

end Mt7601.Data
