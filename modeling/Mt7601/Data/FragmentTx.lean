/-
# Fragments sent, and put together again

`STA_Fragment_Frame_Tx` cuts the data of a packet into pieces that fit the fragmentation threshold
together with the header in front of them and the FCS behind them. In front of the first piece
stands the LLC/SNAP header as well, unless software does the encryption, which has it as part of
the data.

The piece is cut before it is enciphered: what a cipher puts behind it, in hardware or in software,
goes over the threshold. The receiver takes a fragment that begins like an LLC header for a stray
one and leaves it out, and with it the whole frame.
-/
import Mt7601.Data.TxWi
import Mt7601.Data.Defrag
import Mt7601.Data.RxData

namespace Mt7601.Data

open Wpa (CipherAlg)

/-! ## 1. Durations -/

/-- `RateIdTo500Kbps` -/
def rateIdTo500Kbps : List Nat := [2, 4, 11, 22, 12, 18, 24, 36, 48, 72, 96, 108, 144, 200]

/-- `RATE_FIRST_OFDM_RATE` -/
def rateFirstOfdmRate : Nat := 4
/-- `RATE_LAST_OFDM_RATE` -/
def rateLastOfdmRate : Nat := 11
/-- `RATE_6_5` -/
def rate65 : Nat := 12

/-- `RTMPCalcDuration`; `shortPreamble` is `fOP_STATUS_SHORT_PREAMBLE_INUSED`. -/
def rtmpCalcDuration (shortPreamble : Bool) (rate size : Nat) : UInt16 :=
  let unit := rateIdTo500Kbps.getD rate 0
  if rate < rateFirstOfdmRate then
    UInt16.ofNat ((if 0 < rate ∧ shortPreamble then 96 else 192) + size * 16 / unit % 65536 +
      if size * 16 % unit ≠ 0 then 1 else 0)
  else if rate ≤ rateLastOfdmRate then
    UInt16.ofNat (20 + 6 + 4 * ((11 + size * 4) / unit % 65536) +
      if (11 + size * 4) % unit ≠ 0 then 4 else 0)
  else 20 + 6

/-! ## 2. What the function is given -/

/-- `LENGTH_CRC` -/
def lengthCrc : Nat := 4
/-- `MIN_FRAG_THRESHOLD` -/
def minFragThreshold : Nat := 256
/-- `MAX_FRAG_THRESHOLD` -/
def maxFragThreshold : Nat := 2346
/-- The longest header `RTMPSoftConstructIVHdr` builds. -/
def maxIvHdr : Nat := 18

/-- A threshold that the setting of it lets through. -/
structure FragmentThreshold where
  val : Nat
  min_le : minFragThreshold ≤ val
  le_max : val ≤ maxFragThreshold

/-- `RTMP_ADAPTER`, with what is read here besides. -/
structure FragAdapter extends TxAdapter where
  fragmentThreshold : FragmentThreshold
  dsifs : UInt16
  expectedAckRate : Nat → Nat
  shortPreamble : Bool

/-- A cipher that software does: the header `RTMPSoftConstructIVHdr` builds for the `k`-th fragment,
`RTMPSoftEncryptionAction`, and the receiver's `RTMPSoftDecryptionAction`, which takes the header
and what stands behind the data off again. -/
structure SoftCipher where
  ivLen : Nat
  extLen : Nat
  ivLen_le : ivLen ≤ maxIvHdr
  iv : Nat → Octets ivLen
  encrypt : WifiHdr → Nat → List UInt8 → List UInt8
  decrypt : WifiHdr → List UInt8 → List UInt8
  length_encrypt : ∀ h k l, (encrypt h k l).length = l.length + extLen
  decrypt_encrypt : ∀ h k l, decrypt h ((iv k).toList ++ encrypt h k l) = l

/-- `CIPHER_TKIP`: the functions for software do nothing. -/
def SoftCipher.tkip : SoftCipher where
  ivLen := 0
  extLen := 0
  ivLen_le := Nat.zero_le _
  iv _ := .zero 0
  encrypt _ _ l := l
  decrypt _ l := l
  length_encrypt _ _ _ := rfl
  decrypt_encrypt _ _ _ := rfl

/-- What comes of the allocations, and the MIC that `RTMPCalculateMICValue` computes. -/
structure FragEnv where
  /-- `RTMPExpandPacketForSwEncrypt` -/
  expand : Bool
  /-- `duplicate_pkt_with_TKIP_MIC` -/
  duplicate : Bool
  /-- `tmp_ptr` -/
  store : Bool
  mic : Octets 8

/-- `EXTRA_LLCSNAP_ENCAP_FROM_PKT_START`, or `_OFFSET` for software: the type is looked for in
different places if there is a VLAN tag. -/
def fragLlcSnap (swEncrypt : Bool) (p : TxPacket) : List UInt8 :=
  let type := Mem.read p.pSrcBufHeader (if swEncrypt then p.pSrcBufData - 2 else 12) 2
  match extraLlcSnapEncap type with
  | some snap => snap ++ Mem.read p.pSrcBufHeader (p.pSrcBufData - 2) 2
  | none => []

/-! ## 3. The loop -/

/-- What is handed to `HAL_WriteFragTxResource` for a fragment. -/
structure TxFragment where
  wifiHdr : WifiHdr
  qosControl : Option (Octets 2)
  /-- What stands in `HeaderBuf` behind the padding: the LLC/SNAP header, or the header of the
  cipher. -/
  behind : List UInt8
  hdrPadLen : Nat
  mpduHeaderLen : UInt8
  srcBuf : List UInt8
  txWi : TxWi
  fragNum : UInt8
  totalFragNum : UInt8

/-- The octets of the 802.11 header and the QoS control field. -/
def hdrLenOf (qosControl : Option (Octets 2)) : Nat :=
  length80211 + if qosControl.isSome then 2 else 0

/-- The header in `HeaderBuf`, without the padding. -/
def TxFragment.headerBuf (f : TxFragment) : List UInt8 :=
  f.wifiHdr.octets ++ (f.qosControl.map List.Vector.toList).getD [] ++ f.behind

/-- The MPDU: as much of the header as `MpduHeaderLen` says, and the data. -/
def TxFragment.mpdu (f : TxFragment) : List UInt8 :=
  f.headerBuf.take f.mpduHeaderLen.toNat ++ f.srcBuf

/-- What stays as it is in the loop. -/
structure FragTx where
  ad : FragAdapter
  entry : TxEntry
  pTxBlk : TxBlk
  cipherAlg : CipherAlg
  swEncrypt : Option SoftCipher
  qosControl : Option (Octets 2)
  llc : List UInt8

namespace FragTx

/-- `TxRate` -/
def txRate (c : FragTx) : Nat :=
  match c.pTxBlk.pTransmit.mode with
  | .cck => c.pTxBlk.pTransmit.mcs.val
  | .ofdm => c.pTxBlk.pTransmit.mcs.val + rateFirstOfdmRate
  | _ => rate65

/-- `AckDuration` -/
def ackDuration (c : FragTx) : UInt16 :=
  rtmpCalcDuration c.ad.shortPreamble
    (if c.txRate ≤ rateLastOfdmRate then c.ad.expectedAckRate c.txRate else rate65) 14

/-- `EncryptionOverhead` -/
def encryptionOverhead (c : FragTx) : Nat :=
  match c.cipherAlg with
  | .wep64 | .wep128 => 8
  | .tkip => 12
  | .aes => 16
  | .none => 0

/-- `FreeMpduSize` -/
def freeMpduSize (c : FragTx) (mpduHeaderLen : UInt8) : Nat :=
  c.ad.fragmentThreshold.val - lengthCrc - mpduHeaderLen.toNat

/-- What stands behind the padding when the `k`-th fragment is sent. -/
def behind (c : FragTx) (k : Nat) : List UInt8 :=
  match c.swEncrypt with
  | some s => (s.iv k).toList
  | none => c.llc

/-- One pass of the loop: the fragment with the piece `src` of the data. -/
def fragment (c : FragTx) (k : Nat) (wifiHdr : WifiHdr) (mpduHeaderLen : UInt8) (last : Bool)
    (src : List UInt8) : TxFragment :=
  let fragNum := UInt8.ofNat k
  let srcBuf :=
    match c.swEncrypt with
    | some s => s.encrypt wifiHdr k src
    | none => src
  let hdrLen := hdrLenOf c.qosControl
  { wifiHdr := wifiHdr
    qosControl := c.qosControl
    behind := c.behind k
    hdrPadLen := (hdrLen + 3) / 4 * 4 - hdrLen
    mpduHeaderLen := mpduHeaderLen
    srcBuf := srcBuf
    txWi := rtmpWriteTxWiData c.ad.toTxAdapter c.entry
      { c.pTxBlk with frameGap := if fragNum = 0 then .htTxop else .sifs } mpduHeaderLen
      srcBuf.length
    fragNum := fragNum
    totalFragNum := if last then fragNum else 0xff }

/-- `MpduHeaderLen` for the next pass. -/
def nextHeaderLen (c : FragTx) (k : Nat) (mpduHeaderLen : UInt8) : UInt8 :=
  if c.swEncrypt.isNone ∧ UInt8.ofNat k = 0 ∧ c.llc ≠ [] then
    mpduHeaderLen - UInt8.ofNat length8021H
  else mpduHeaderLen

/-- The header of the last fragment. -/
def lastHdr (c : FragTx) (wifiHdr : WifiHdr) : WifiHdr :=
  { wifiHdr with
    moreFrag := false
    duration := c.ad.dsifs + c.ackDuration }

/-- The header of a fragment that has others behind it: `nextSize` octets of data. -/
def moreHdr (c : FragTx) (wifiHdr : WifiHdr) (shortPreamble : Bool) (nextSize : Nat) : WifiHdr :=
  { wifiHdr with
    moreFrag := true
    duration := 3 * c.ad.dsifs + 2 * c.ackDuration +
      rtmpCalcDuration shortPreamble c.txRate
        (min nextSize c.ad.fragmentThreshold.val + c.encryptionOverhead) }

/-- The loop, from its `k`-th pass on. `RTMPWriteTxWI_Data` turns the short preamble off. -/
def loop (c : FragTx) (k : Nat) (wifiHdr : WifiHdr) (mpduHeaderLen : UInt8) (shortPreamble : Bool)
    (src : List UInt8) : List TxFragment :=
  let free := c.freeMpduSize mpduHeaderLen
  if src.length ≤ free then
    [c.fragment k (c.lastHdr wifiHdr) mpduHeaderLen true src]
  else if free = 0 then
    -- does not happen (`lt_freeMpduSize`); the loop would not end
    []
  else
    let wifiHdr := c.moreHdr wifiHdr shortPreamble (src.length - free)
    c.fragment k wifiHdr mpduHeaderLen false (src.take free) ::
      c.loop (k + 1) { wifiHdr with frag := wifiHdr.frag + 1 } (c.nextHeaderLen k mpduHeaderLen)
        false (src.drop free)
termination_by src.length

/-- The header `MpduHeaderLen` counts at first. -/
def headerLen (c : FragTx) : Nat :=
  hdrLenOf c.qosControl + (c.behind 0).length

end FragTx

/-- What the loop is entered with: what stays, and the data. -/
def fragTxOf (ad : FragAdapter) (entry : TxEntry) (env : FragEnv) (swEncrypt : Option SoftCipher)
    (pPacket : QueuedPacket) : FragTx × List UInt8 :=
  let pTxBlk := rtmpFillTxBlkInfo ad.toTxAdapter entry .frag pPacket
  let cipherAlg := staFindCipherAlgorithm ad.toTxAdapter pTxBlk
  let llc := fragLlcSnap swEncrypt.isSome pPacket.toTxPacket
  let data := Mem.read pPacket.pSrcBufHeader pPacket.pSrcBufData
    (pPacket.srcBufLen - pPacket.pSrcBufData)
  let mic := if cipherAlg = .tkip then env.mic.toList else []
  ({ ad := ad
     entry := entry
     pTxBlk := pTxBlk
     cipherAlg := cipherAlg
     swEncrypt := swEncrypt
     qosControl :=
       if pTxBlk.wmm then some (.ofList 2 [UInt8.ofNat pTxBlk.userPriority.val, 0]) else none
     llc := llc },
    (if swEncrypt.isSome then llc else []) ++ data ++ mic)

/-- The allocations that a packet needs succeed. -/
def FragEnv.suffices (env : FragEnv) (c : FragTx) : Bool :=
  (c.swEncrypt.isSome → env.expand ∧ env.store) ∧ (c.cipherAlg = .tkip → env.duplicate)

/-- `STA_Fragment_Frame_Tx`: the fragments, and the sequence numbers after them. -/
def staFragmentFrameTx (ad : FragAdapter) (entry : TxEntry) (seqs : TxSeqs) (env : FragEnv)
    (swEncrypt : Option SoftCipher) (pPacket : QueuedPacket) : List TxFragment × TxSeqs :=
  let c := fragTxOf ad entry env swEncrypt pPacket
  let hdr := staBuildCommon80211Header ad.toTxAdapter seqs c.1.pTxBlk c.1.cipherAlg
  if env.suffices c.1 then
    (c.1.loop 0 hdr.1 (UInt8.ofNat c.1.headerLen) ad.shortPreamble c.2, hdr.2)
  else ([], hdr.2)

/-- The MSDU as it goes out: the LLC/SNAP header, the data of the packet and for TKIP the MIC. -/
def msduOf (ad : FragAdapter) (entry : TxEntry) (env : FragEnv) (swEncrypt : Option SoftCipher)
    (pPacket : QueuedPacket) : List UInt8 :=
  let c := fragTxOf ad entry env swEncrypt pPacket
  (if swEncrypt.isSome then [] else c.1.llc) ++ c.2

end Mt7601.Data
