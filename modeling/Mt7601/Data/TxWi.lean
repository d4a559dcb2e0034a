/-
# `TXWI_STRUC`: what the hardware is told about a frame

`RTMPWriteTxWI_Data` writes it from nothing. Each field is as wide as the bit field of the source,
so what is put into it is cut off there.
-/
import Mt7601.Data.TxBlk

namespace Mt7601.Data

/-- `TXWI_NMAC`, the fields that are written. -/
structure TxWi where
  frag : Bool
  mimoPs : Bool
  cfAck : Bool
  ampdu : Bool
  mpduDensity : Fin 8
  txop : Ifs
  mcs : Fin 128
  bw40 : Bool
  shortGi : Bool
  stbc : Fin 4
  phyMode : PhyMode
  ack : Bool
  baWinSize : Fin 64
  wcid : UInt8
  mpduByteCnt : Fin 4096
  packetId : Fin 16
deriving Repr

/-- Dynamic MIMO power save. -/
def TxEntry.dynamicMimoPs (entry : TxEntry) (pTransmit : HtTransmitSetting) : Bool :=
  entry.mmpsMode = .dynamic ∧ 7 < pTransmit.mcs.val

/-- Static MIMO power save. -/
def TxEntry.staticMimoPs (entry : TxEntry) (pTransmit : HtTransmitSetting) : Bool :=
  entry.mmpsMode = .static ∧ PhyMode.htMix ≤ pTransmit.mode ∧ 7 < pTransmit.mcs.val

/-- "If CCK or OFDM, BW must be 20" -/
def bwOf (pTransmit : HtTransmitSetting) : Bool :=
  if pTransmit.mode ≤ .ofdm then false else pTransmit.bw40

/-- What becomes of a channel bandwidth of 40 MHz; one of 20 stays as it is. -/
def recomBw (ad : TxAdapter) (pTransmit : HtTransmitSetting) (bw40 : Bool) : Bool :=
  if bw40 then if ad.recomWidth then pTransmit.bw40 else false else false

/-- The rate that is written. -/
def mcsOf (entry : TxEntry) (pTransmit : HtTransmitSetting) : Fin 128 :=
  if entry.staticMimoPs pTransmit then 7 else pTransmit.mcs

/-- `BASize` -/
def baSizeOf (ad : TxAdapter) (entry : TxEntry) (pTxBlk : TxBlk) : UInt8 :=
  if pTxBlk.txFrameType = .ampdu then entry.baWinSize pTxBlk.userPriority else ad.txBaSize

/-- `RTMPWriteTxWI_Data` -/
def rtmpWriteTxWiData (ad : TxAdapter) (entry : TxEntry) (pTxBlk : TxBlk) (mpduHeaderLen : UInt8)
    (srcBufLen : Nat) : TxWi :=
  let pTransmit := pTxBlk.pTransmit
  let mcs := mcsOf entry pTransmit
  { frag := pTxBlk.allowFrag
    ack := pTxBlk.ackRequired
    txop := pTxBlk.frameGap
    wcid := pTxBlk.wcid
    mpduByteCnt := Fin.ofNat 4096 (mpduHeaderLen.toNat + srcBufLen)
    cfAck := pTxBlk.piggyBack
    bw40 := recomBw ad pTransmit (bwOf pTransmit)
    ampdu := pTxBlk.txFrameType = .ampdu
    baWinSize := Fin.ofNat 64 (baSizeOf ad entry pTxBlk).toNat
    shortGi := pTransmit.shortGi
    stbc := pTransmit.stbc
    mcs := mcs
    phyMode := pTransmit.mode
    mimoPs := entry.dynamicMimoPs pTransmit
    mpduDensity := entry.mpduDensity
    packetId := Fin.ofNat 16 mcs.val }

end Mt7601.Data
