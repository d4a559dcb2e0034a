/-
# How a received data frame is passed up

What `STAHandleRxDataFrame` does with a frame once its headers are off: which function the frame is
handed to (`Route`), and what that function gives to the upper layer. A frame of a Block-Ack session
may wait in a reorder list meanwhile, and it is handed up when the list is drained, which another
frame, a Block-Ack request or the end of the session makes happen.

What goes up is an Ethernet frame. Each is logged with what the frame it was made of was received
with, and with the port and the encryption as they are at that moment.
-/
import Mt7601.Data.RxData
import Mt7601.Data.Defrag
import Mt7601.Data.Amsdu
import Mt7601.Ba.Defs

namespace Mt7601.Data

open Header
open Mt7601.Wpa (WepStatus CipherAlg)

/-! ## 1. Frames -/

/-- `LENGTH_EAPOL_H` -/
def lengthEapolH : Nat := 4
/-- `LENGTH_EAP_H` -/
def lengthEapH : Nat := 4
/-- `EAPPacket` -/
def eapPacket : Nat := 0
/-- `EAPOLASFAlert` -/
def eapolAsfAlert : Nat := 4
/-- `EAP_CODE_SUCCESS` -/
def eapCodeSuccess : Nat := 3

/-- `RTMPCheckWPAframe`: an LLC/SNAP header, which may be missing, the type of EAPOL and one of its
packet types. -/
def rtmpCheckWpaFrame (mem : List UInt8) (pData dataByteCount : Nat) : Bool :=
  if dataByteCount < length8021H + lengthEapolH then false
  else
    let llc := Mem.read mem pData 6
    let pData := if llc = snap8021H ∨ llc = snapBridgeTunnel then pData + 6 else pData
    if Mem.read mem pData 2 = eapol then (mem.getD (pData + 3) 0).toNat ≤ eapolAsfAlert
    else false

/-- `WpaCheckEapCode` -/
def wpaCheckEapCode (mem : List UInt8) (pFrame frameLen offSet : Nat) : Nat :=
  if frameLen < offSet + lengthEapolH + lengthEapH then 0
  else if (mem.getD (pFrame + offSet + 1) 0).toNat = eapPacket then
    (mem.getD (pFrame + offSet + 4) 0).toNat
  else 0

/-- A frame whose headers have been taken off, on its way up. -/
structure RxFrame extends RxData where
  /-- `fRX_EAP` -/
  eap : Bool
  /-- `RxWITID` -/
  tid : Fin 16
  /-- how the allocations for its subframes go, if it is an A-MSDU -/
  allocs : Nat → Allocs
  /-- `duplicate_pkt` succeeds, if it is an A-Ralink -/
  duplicated : Bool
  /-- the frame, or a fragment of it, came without the protected bit -/
  clear : Bool

/-- `RTMP_802_11_REMOVE_LLC_AND_CONVERT_TO_802_3`: `Addr1` and, in a BSS, `Addr3`, else `Addr2`. -/
def RxFrame.to8023 (f : RxFrame) : To8023 :=
  convertTo8023 f.pHeader 4 (if f.flags.infra then 16 else 10) f.pData f.dataSize

/-- The Ethernet frame: the header that was made, and the data behind the LLC/SNAP header. -/
def To8023.packet (mem : List UInt8) (to8023 : To8023) : List UInt8 :=
  to8023.header8023 ++ Mem.read mem to8023.pData to8023.dataSize.toNat

/-- What `deaggregate_AMSDU_announce` gives to the upper layer. -/
def Passed.announced : Passed → Option (List UInt8)
  | .eapol .. => none
  | .packet _ _ _ octets => some octets

/-! ## 2. What goes up -/

/-- `Indicate_Legacy_Packet`, without the look at the reorder list. -/
def indicateLegacyPacket (f : RxFrame) : List (List UInt8) :=
  if Ba.maxRxPktLen < f.to8023.dataSize.toNat then [] else [f.to8023.packet f.pHeader]

/-- `deaggregate_AMSDU_announce` on the octets from `pData` on. -/
def announceAmsdu (allocs : Nat → Allocs) (pData : List UInt8) (dataSize : UInt16) :
    List (List UInt8) :=
  (deaggregateAmsduAnnounce allocs 0 0 pData dataSize.toNat).passed.filterMap Passed.announced

/-- `Indicate_AMSDU_Packet` -/
def indicateAmsduPacket (f : RxFrame) : List (List UInt8) :=
  announceAmsdu f.allocs (f.pHeader.drop f.pData) f.dataSize

/-- `convert_reordering_packet_to_preAMSDU_or_802_3_packet` when the frame is put into the list and
`Announce_Reordering_Packet` when it is taken out: an LLC/SNAP header is taken off an A-MSDU too,
and an A-MSDU gets no Ethernet header. -/
def announceReorderingPacket (f : RxFrame) : List (List UInt8) :=
  if f.flags.amsdu then
    announceAmsdu f.allocs (f.pHeader.drop f.to8023.pData) f.to8023.dataSize
  else [f.to8023.packet f.pHeader]

/-- `Msdu2Size` -/
def msdu2Size (mem : List UInt8) (pData : Nat) : UInt16 :=
  (mem.getD pData 0).toUInt16 + (mem.getD (pData + 1) 0).toUInt16 * 256

/-- The two octets of `Msdu2Size` are skipped. -/
def RxFrame.skipMsdu2Size (f : RxFrame) : RxFrame :=
  { f with
    pData := f.pData + 2
    dataSize := f.dataSize - 2 }

/-- `Payload1Size` -/
def payload1Size (f : RxFrame) : UInt16 :=
  f.skipMsdu2Size.to8023.dataSize - msdu2Size f.pHeader f.pData

/-- `pData2 - LENGTH_802_3`: where the second frame begins. -/
def secondMsdu (f : RxFrame) : Nat :=
  f.skipMsdu2Size.to8023.pData + (payload1Size f).toNat

/-- `CmmRxRalinkFrameIndicate`: the second frame is there with its Ethernet header. -/
def cmmRxRalinkFrameIndicate (f : RxFrame) : List (List UInt8) :=
  let size := msdu2Size f.pHeader f.pData
  if size ≤ 1536 ∧ size < f.dataSize then
    if f.duplicated then
      let to8023 := f.skipMsdu2Size.to8023
      let payload2Size := size - UInt16.ofNat length8023
      let first := { to8023 with dataSize := payload1Size f }
      [first.packet f.pHeader,
        Mem.read f.pHeader (secondMsdu f) length8023 ++
          Mem.read f.pHeader (secondMsdu f + length8023) payload2Size.toNat]
    else []
  else []

/-! ## 3. Where a frame is handed to -/

/-- The settings that decide. -/
structure RxPort where
  /-- `StaCfg.WepStatus` -/
  wepStatus : WepStatus
  /-- `StaCfg.PortSecured` -/
  portSecured : Bool
  /-- `fOP_STATUS_MEDIA_STATE_CONNECTED` -/
  mediaConnected : Bool
  /-- `CommonCfg.bDisableReordering` -/
  bDisableReordering : Bool
  /-- `StaCfg.WpaSupplicantUP` -/
  wpaSupplicantUp : Bool
  /-- `StaCfg.IEEE8021X` -/
  ieee8021X : Bool
  /-- `MacTab.Content[..].WepStatus` -/
  entryWepStatus : Nat → WepStatus

/-- The function a frame is handed to, if it is not released. -/
inductive Route
  | release
  | legacy (f : RxFrame)
  | amsdu (f : RxFrame)
  | aralink (f : RxFrame)
  | ampdu (f : RxFrame)
  | eapol (f : RxFrame)

/-- `CmmRxnonRalinkFrameIndicate` -/
def cmmRxNonRalinkFrameIndicate (port : RxPort) (f : RxFrame) : Route :=
  if f.flags.ampdu ∧ port.bDisableReordering = false then .ampdu f
  else if f.flags.amsdu then .amsdu f
  else .legacy f

/-- `STARxDataFrameAnnounce` -/
def staRxDataFrameAnnounce (port : RxPort) (f : RxFrame) : Route :=
  if rtmpCheckWpaFrame f.pHeader f.pData f.dataSize.toNat = false then
    if port.mediaConnected = false then .release
    else if wep f.pHeader ∧ port.wepStatus = .wepDisabled then .release
    else if wep f.pHeader = false ∧ port.wepStatus ≠ .wepDisabled ∧ port.portSecured = false then
      .release
    else
      let f := { f with eap := false }
      if f.flags.aralink then .aralink f else cmmRxNonRalinkFrameIndicate port f
  else
    let f := { f with eap := true }
    if f.flags.ampdu ∧ port.bDisableReordering = false then .ampdu f else .eapol f

/-- A frame the bus hands over, with what the functions that are called on the way will answer. -/
structure ReceivedFrame where
  /-- the memory from the 802.11 header on -/
  pHeader : List UInt8
  rxWi : RxWi
  rxInfo : RxInfo
  /-- `RxWITID` -/
  tid : Fin 16
  /-- what `RTMPSwCipherKeySelection` and `RTMPSoftDecryptionAction` leave at `pData`, and the size,
  if there is a key and they succeed -/
  softDecrypted : Option (List UInt8 × UInt16)
  /-- the packet that stands ready should the fragment complete a frame -/
  pNewFragPacket : Option (List UInt8)
  /-- `STACheckTkipMICValue` -/
  micOk : Bool
  allocs : Nat → Allocs
  duplicated : Bool
  now32 : Ba.Ulong

/-- What `STAHandleRxDataFrame` keeps between frames of one station. -/
structure Reassembly where
  fragFrame : FragFrame
  /-- a fragment in the buffer came without the protected bit -/
  clear : Bool

/-- Whether the buffer holds a fragment that came in the clear, once this one has been looked at. -/
def Reassembly.clearAfter (r : Reassembly) (pRxBlk : RxBlk) (clear : Bool) : Bool :=
  if frag pRxBlk.pHeader = 0 then if moreFrag pRxBlk.pHeader then clear else r.clear
  else if r.fragFrame.outOfOrder pRxBlk ∨ r.fragFrame.tooLarge pRxBlk then false
  else if anotherLlc pRxBlk then r.clear
  else (r.clear || clear) && moreFrag pRxBlk.pHeader

/-- Decryption by software, of a protected frame that the hardware has not decrypted. -/
def decryptBySoftware (d : RxData) (softDecrypted : Option (List UInt8 × UInt16)) :
    Option RxData :=
  if wep d.pHeader ∧ d.rxInfo.decrypted = false then
    softDecrypted.map fun res =>
      { d with
        pHeader := Mem.write d.pHeader d.pData res.1
        dataSize := res.2
        rxInfo := { d.rxInfo with decrypted := true } }
  else some d

/-- The unicast branch behind the reassembly: the MIC of a frame that was put together is checked
here. -/
def handleComplete (port : RxPort) (f : RxFrame) (bFragment micOk : Bool) : Route :=
  if bFragment ∧ f.rxInfo.decrypted ∧
      port.entryWepStatus f.rxWi.wirelessCliId = .encryption2Enabled then
    if micOk then staRxDataFrameAnnounce port { f with dataSize := f.dataSize - 8 } else .release
  else staRxDataFrameAnnounce port f

/-- `STAHandleRxDataFrame`: what becomes of the reassembly buffer, and where the frame goes. -/
def staHandleRxDataFrame (station : RxStation) (port : RxPort) (r : Reassembly)
    (a : ReceivedFrame) : Reassembly × Route :=
  if staAdmits station a.pHeader a.rxWi a.rxInfo = false then (r, .release)
  else
    match decryptBySoftware (stripHeaders station a.pHeader a.rxWi a.rxInfo) a.softDecrypted with
    | none => (r, .release)
    | some d =>
      let f : RxFrame :=
        { toRxData := d
          eap := false
          tid := a.tid
          allocs := a.allocs
          duplicated := a.duplicated
          clear := ! wep a.pHeader }
      if d.rxInfo.bcast ∨ d.rxInfo.mcast then
        if moreFrag d.pHeader then (r, .release)
        else if frDs d.pHeader ∧ addr3 d.pHeader = station.currentAddress then (r, .release)
        else (r, .legacy f)
      else if d.rxInfo.u2m then
        if frag d.pHeader = 0 ∧ moreFrag d.pHeader = false then
          (r, handleComplete port f false a.micOk)
        else
          let res := rtmpDeFragmentDataFrame r.fragFrame d.toRxBlk a.pNewFragPacket
          let r' : Reassembly := ⟨res.1, r.clearAfter d.toRxBlk f.clear⟩
          match res.2 with
          | none => (r', .release)
          | some blk =>
            let whole := { f with toRxBlk := blk, clear := r.clear || f.clear }
            (r', handleComplete port whole true a.micOk)
      else (r, .release)

/-! ## 4. The station over time -/

/-- An Ethernet frame that was given to the upper layer. -/
structure Indication where
  octets : List UInt8
  /-- what it was made of came, or some of it, without the protected bit -/
  clear : Bool
  /-- `PortSecured` at that moment -/
  portSecured : Bool
  /-- `WepStatus` at that moment -/
  wepStatus : WepStatus

structure RxState where
  station : RxStation
  port : RxPort
  reassembly : Reassembly
  ba : Ba.Adapter
  /-- the frames that packets hold -/
  held : Ba.Packet → RxFrame
  /-- the next packet -/
  nextPacket : Ba.Packet
  indicated : List Indication

/-- `RX_BLK`, as the reordering looks at it. -/
def RxFrame.toBlk (f : RxFrame) (packet : Ba.Packet) : Ba.RxBlk where
  sequence := Fin.ofNat 4096 (Header.sequence f.pHeader)
  wcid := f.rxWi.wirelessCliId
  tid := f.tid
  dataSize := f.dataSize.toNat
  amsdu := f.flags.amsdu
  eap := f.eap
  opMode := 0
  pRxPacket := packet

namespace RxState

/-- The Ethernet frames made of a frame go up. -/
def indicate (s : RxState) (f : RxFrame) (packets : List (List UInt8)) : RxState :=
  { s with
    indicated := s.indicated ++
      packets.map fun octets => ⟨octets, f.clear, s.port.portSecured, s.port.wepStatus⟩ }

/-- `STARxEAPOLFrameIndicate`, up to the frame itself: an EAP-SUCCESS opens the port. -/
def eapSuccess (port : RxPort) (f : RxFrame) : RxPort :=
  if port.ieee8021X ∧ port.wepStatus = .wepEnabled ∧
      wpaCheckEapCode f.pHeader f.pData f.dataSize.toNat length8021H = eapCodeSuccess then
    { port with portSecured := true }
  else port

/-- `INDICATE_LEGACY_OR_AMSDU`, of a frame whose list has no time-out due: one without a session, or
with a timer that has just been set. -/
def indicateLegacyOrAmsdu (s : RxState) (f : RxFrame) : RxState :=
  if f.flags.amsdu then s.indicate f (indicateAmsduPacket f)
  else if f.eap then
    -- `Indicate_EAPOL_Packet`
    if f.rxWi.wirelessCliId < Ba.maxLenOfMacTable ∧ s.port.wpaSupplicantUp then
      { s with port := eapSuccess s.port f }.indicate f (indicateLegacyPacket f)
    else s
  else s.indicate f (indicateLegacyPacket f)

/-- What the sessions do with a packet. -/
def dispose (s : RxState) : Ba.Disposal → RxState
  | .announce mpdu => s.indicate (s.held mpdu.pPacket) (announceReorderingPacket (s.held mpdu.pPacket))
  | .legacy blk => s.indicateLegacyOrAmsdu (s.held blk.pRxPacket)
  | .release _ => s

/-- An operation on the sessions, and what it hands up. -/
def reorder (hz : Ba.OsHz) (s : RxState) (op : Ba.Op) : RxState :=
  let ba := Ba.step hz { s.ba with log := [] } op
  ba.log.foldl dispose { s with ba := ba }

/-- `Indicate_Legacy_Packet` has a time-out of its list to do first. -/
def flushDue (hz : Ba.OsHz) (s : RxState) (f : RxFrame) (now32 : Ba.Ulong) : Bool :=
  let idx := s.ba.baRecWcidArray f.rxWi.wirelessCliId f.tid
  let entry := s.ba.baRecEntry idx
  s.port.bDisableReordering = false ∧ f.rxWi.wirelessCliId < Ba.maxLenOfMacTable ∧ idx ≠ 0 ∧
    0 < entry.list.qlen ∧
      Ba.rtmpTimeAfter now32 (entry.lastIndSeqAtTimer + BitVec.ofNat 64 hz.reorderingPacketTimeout)

/-- `Indicate_Legacy_Packet` -/
def legacyPacket (hz : Ba.OsHz) (s : RxState) (f : RxFrame) (now32 : Ba.Ulong) : RxState :=
  if Ba.maxRxPktLen < f.to8023.dataSize.toNat then s
  else if s.flushDue hz f now32 then
    (s.reorder hz (.flush f.rxWi.wirelessCliId f.tid now32)).indicate f (indicateLegacyPacket f)
  else s.indicate f (indicateLegacyPacket f)

/-- `Indicate_AMPDU_Packet`: the packet keeps the frame. -/
def ampduPacket (hz : Ba.OsHz) (s : RxState) (f : RxFrame) (now32 : Ba.Ulong) : RxState :=
  { s with
    held := fun p => if p = s.nextPacket then f else s.held p
    nextPacket := s.nextPacket + 1 }.reorder hz (.indicate (f.toBlk s.nextPacket) now32)

/-- The frame is handed to the function the route names. -/
def announce (hz : Ba.OsHz) (s : RxState) (now32 : Ba.Ulong) : Route → RxState
  | .release => s
  | .legacy f => s.legacyPacket hz f now32
  | .amsdu f => s.indicate f (indicateAmsduPacket f)
  | .aralink f => s.indicate f (cmmRxRalinkFrameIndicate f)
  | .ampdu f => s.ampduPacket hz f now32
  | .eapol f =>
    -- `STARxEAPOLFrameIndicate`
    if s.port.wpaSupplicantUp then
      { s with port := eapSuccess s.port f }.legacyPacket hz f now32
    else s

end RxState

/-- What happens to the station: a data frame arrives, something else happens to the sessions, or
the settings change. -/
inductive RxOp
  | receive (a : ReceivedFrame)
  | session (op : Ba.Op) (other : ∀ blk now32, op ≠ .indicate blk now32)
  | settings (station : RxStation) (port : RxPort)

def RxState.step (hz : Ba.OsHz) (s : RxState) : RxOp → RxState
  | .receive a =>
    let res := staHandleRxDataFrame s.station s.port s.reassembly a
    { s with reassembly := res.1 }.announce hz a.now32 res.2
  | .session op _ => s.reorder hz op
  | .settings station port =>
    { s with
      station := station
      port := port }

/-- The station when the interface comes up. -/
def RxState.start (station : RxStation) (port : RxPort) (mem : List UInt8) (freelist : Nat)
    (held : Ba.Packet → RxFrame) : RxState where
  station := station
  port := port
  reassembly := ⟨⟨mem, 0, 0, 0⟩, false⟩
  ba := Ba.baTableInit freelist
  held := held
  nextPacket := 0
  indicated := []

end Mt7601.Data
