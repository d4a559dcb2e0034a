/-
# Who owns a received packet

`GetPacketFromRxRing` hands a packet out, and the comment in `STARxDoneInterruptHandle` says what is
to become of it: it is indicated to the upper layer or released. On the way it passes through a
dozen functions, and the reorder lists may keep it. A fragment is always released; it is the packet
of the reassembly buffer that goes on when a frame is complete, and a fresh one takes its place.

Here every function is followed with the packet it has in hand (`Hands`). All of them settle what
they are given, and one pass of the loop does not: a frame of fewer than 14 octets is left by
`continue`.
-/
import Mt7601.Data.RxRing
import Mt7601.Data.RxAnnounce
import Mt7601.Ba.Pool

namespace Mt7601.Data

open Header
open Mt7601.Wpa (WepStatus)
open Mt7601.Ba (Packet)

/-! ## 1. Packets -/

/-- `RELEASE_NDIS_PACKET`, or up to the system. -/
inductive Fate
  | released (p : Packet)
  | indicated (p : Packet)

def Fate.packet : Fate → Packet
  | .released p => p
  | .indicated p => p

/-- The receive path, with the packets it holds. -/
structure RxOwner where
  port : RxPort
  fragFrame : FragFrame
  /-- `FragFrame.pFragPacket` -/
  pFragPacket : Nat
  ba : Ba.Adapter
  /-- the frames that packets hold -/
  held : Packet → RxFrame
  /-- the number of packets allocated so far, and the handle of the next one -/
  nextPacket : Nat
  fates : List Fate

/-- What the functions that are called in one pass of the loop will answer. -/
structure RxAnswers where
  port : RxPort
  /-- `RxWITID` -/
  tid : Fin 16
  /-- `RTMPSwCipherKeySelection` and `RTMPSoftDecryptionAction` -/
  softDecrypted : Option (List UInt8 × UInt16)
  /-- `RTMP_AllocateFragPacketBuffer` -/
  pNewFragPacket : Option (List UInt8)
  /-- `RTMPTkipCompareMICValue` -/
  micOk : Bool
  allocs : Nat → Allocs
  /-- `duplicate_pkt` -/
  duplicated : Bool
  /-- a flag that makes `CntlEnqueueForRecv` return -/
  halting : Bool
  /-- the headroom suffices, or `pskb_expand_head` makes it -/
  expandHead : Bool
  now32 : Ba.Ulong

/-- `SUBTYPE_BLOCK_ACK_REQ` -/
def subtypeBlockAckReq : Nat := 8

/-- `BARControl.TID` of a `FRAME_BA_REQ` -/
def barControlTid (pHeader : List UInt8) : Fin 16 :=
  Fin.ofNat 16 ((pHeader.getD 17 0).toNat / 16)

/-- `BAStartingSeq.field.StartSeq` of a `FRAME_BA_REQ` -/
def baStartSeq (pHeader : List UInt8) : Ba.SeqNo :=
  Fin.ofNat 4096 ((pHeader.getD 18 0).toNat / 16 + (pHeader.getD 19 0).toNat * 16)

/-- `sizeof(wlan_ng_prism2_header)` -/
def prism2HeaderSize : Nat := 144
/-- `RX_BUFFER_AGGRESIZE` -/
def rxBufferAggreSize : Nat := 3840

/-! ## 2. The functions -/

namespace RxOwner

/-- `RELEASE_NDIS_PACKET` -/
def release (s : RxOwner) (p : Packet) : RxOwner :=
  { s with fates := s.fates ++ [.released p] }

/-- `ANNOUNCE_OR_FORWARD_802_3_PACKET` -/
def announceOrForward (s : RxOwner) (p : Packet) : RxOwner :=
  { s with fates := s.fates ++ [.indicated p] }

/-- `GetPacketFromRxRing` and `RTMP_AllocateFragPacketBuffer` allocate a packet. -/
def allocate (s : RxOwner) : RxOwner :=
  { s with nextPacket := s.nextPacket + 1 }

/-- `deaggregate_AMSDU_announce`: the subframes go up as packets of their own, and finally the
original is released. -/
def deaggregateAmsdu (s : RxOwner) (p : Packet) : RxOwner :=
  s.release p

/-- `Indicate_Legacy_Packet`, of a frame whose list has no time-out due. -/
def indicateLegacy (s : RxOwner) (f : RxFrame) (p : Packet) : RxOwner :=
  if Ba.maxRxPktLen < f.to8023.dataSize.toNat then s.release p else s.announceOrForward p

/-- `INDICATE_LEGACY_OR_AMSDU`: the session of the frame has none, or its timer has just been set. -/
def indicateLegacyOrAmsdu (s : RxOwner) (f : RxFrame) (p : Packet) : RxOwner :=
  if f.flags.amsdu then s.deaggregateAmsdu p
  else if f.eap then
    -- `Indicate_EAPOL_Packet`
    if Ba.maxLenOfMacTable ≤ f.rxWi.wirelessCliId then s.release p
    else if s.port.wpaSupplicantUp then s.indicateLegacy f p
    else s.release p
  else s.indicateLegacy f p

/-- What the sessions do with a packet; an A-MSDU out of a list is taken apart like any other. -/
def dispose (s : RxOwner) : Ba.Disposal → RxOwner
  | .announce mpdu =>
    if mpdu.bAMSDU then s.deaggregateAmsdu mpdu.pPacket else s.announceOrForward mpdu.pPacket
  | .legacy blk => s.indicateLegacyOrAmsdu (s.held blk.pRxPacket) blk.pRxPacket
  | .release packet => s.release packet

/-- The sessions, with nothing handed up yet. -/
def sessions (s : RxOwner) : Ba.Adapter :=
  { s.ba with log := [] }

/-- An operation on the sessions, and what it hands up or releases. -/
def reorder (hz : Ba.OsHz) (s : RxOwner) (op : Ba.Op) : RxOwner :=
  let ba := Ba.step hz s.sessions op
  ba.log.foldl dispose { s with ba := ba }

/-- The list of the frame's session has a time-out due. -/
def flushDue (hz : Ba.OsHz) (s : RxOwner) (f : RxFrame) (now32 : Ba.Ulong) : Bool :=
  let idx := s.ba.baRecWcidArray f.rxWi.wirelessCliId f.tid
  let entry := s.ba.baRecEntry idx
  s.port.bDisableReordering = false ∧ f.rxWi.wirelessCliId < Ba.maxLenOfMacTable ∧ idx ≠ 0 ∧
    0 < entry.list.qlen ∧
      Ba.rtmpTimeAfter now32 (entry.lastIndSeqAtTimer + BitVec.ofNat 64 hz.reorderingPacketTimeout)

/-- `Indicate_Legacy_Packet` -/
def indicateLegacyPacket (hz : Ba.OsHz) (s : RxOwner) (f : RxFrame) (p : Packet)
    (now32 : Ba.Ulong) : RxOwner :=
  if Ba.maxRxPktLen < f.to8023.dataSize.toNat then s.release p
  else if s.flushDue hz f now32 then
    (s.reorder hz (.flush f.rxWi.wirelessCliId f.tid now32)).announceOrForward p
  else s.announceOrForward p

/-- `Indicate_AMPDU_Packet`: the packet keeps the frame. -/
def indicateAmpduPacket (hz : Ba.OsHz) (s : RxOwner) (f : RxFrame) (p : Packet)
    (now32 : Ba.Ulong) : RxOwner :=
  { s with held := fun q => if q = p then f else s.held q }.reorder hz
    (.indicate (f.toBlk p) now32)

/-- `CmmRxRalinkFrameIndicate`: the second frame goes up in a packet of its own. -/
def cmmRxRalinkFrameIndicate (s : RxOwner) (f : RxFrame) (p : Packet) : RxOwner :=
  let size := msdu2Size f.pHeader f.pData
  if size ≤ 1536 ∧ size < f.dataSize then
    if f.duplicated then s.announceOrForward p else s.release p
  else s.release p

/-- `CmmRxnonRalinkFrameIndicate` -/
def cmmRxNonRalinkFrameIndicate (hz : Ba.OsHz) (s : RxOwner) (f : RxFrame) (p : Packet)
    (now32 : Ba.Ulong) : RxOwner :=
  if f.flags.ampdu ∧ s.port.bDisableReordering = false then s.indicateAmpduPacket hz f p now32
  else if f.flags.amsdu then s.deaggregateAmsdu p
  else s.indicateLegacyPacket hz f p now32

/-- `STARxEAPOLFrameIndicate`: what is not for a supplicant is reported to the MLME, in a copy. -/
def staRxEapolFrameIndicate (hz : Ba.OsHz) (s : RxOwner) (f : RxFrame) (p : Packet)
    (now32 : Ba.Ulong) : RxOwner :=
  if s.port.wpaSupplicantUp then s.indicateLegacyPacket hz f p now32 else s.release p

/-- `STARxDataFrameAnnounce` -/
def staRxDataFrameAnnounce (hz : Ba.OsHz) (s : RxOwner) (f : RxFrame) (p : Packet)
    (now32 : Ba.Ulong) : RxOwner :=
  if rtmpCheckWpaFrame f.pHeader f.pData f.dataSize.toNat = false then
    if s.port.mediaConnected = false then s.release p
    else if wep f.pHeader ∧ s.port.wepStatus = .wepDisabled then s.release p
    else if wep f.pHeader = false ∧ s.port.wepStatus ≠ .wepDisabled ∧
        s.port.portSecured = false then s.release p
    else
      let f := { f with eap := false }
      if f.flags.aralink then s.cmmRxRalinkFrameIndicate f p
      else s.cmmRxNonRalinkFrameIndicate hz f p now32
  else
    let f := { f with eap := true }
    if f.flags.ampdu ∧ s.port.bDisableReordering = false then s.indicateAmpduPacket hz f p now32
    else s.staRxEapolFrameIndicate hz f p now32

/-- `RTMPDeFragmentDataFrame`: the fragment is released on every path. A complete frame is in the
packet of the buffer, and a fresh one takes its place. -/
def rtmpDeFragmentDataFrame (s : RxOwner) (pRxBlk : RxBlk) (p : Packet)
    (pNewFragPacket : Option (List UInt8)) : RxOwner × Option (RxBlk × Packet) :=
  let res := Data.rtmpDeFragmentDataFrame s.fragFrame pRxBlk pNewFragPacket
  let s := { s with fragFrame := res.1 }.release p
  match res.2 with
  | none => (s, none)
  | some whole =>
    ({ s with pFragPacket := s.nextPacket }.allocate, some (whole, s.pFragPacket))

/-- A frame that is complete; the MIC of one that was put together is checked here, and
`STACheckTkipMICValue` releases the packet itself if it is wrong. -/
def handleComplete (hz : Ba.OsHz) (s : RxOwner) (f : RxFrame) (p : Packet) (bFragment micOk : Bool)
    (now32 : Ba.Ulong) : RxOwner :=
  if bFragment ∧ f.rxInfo.decrypted ∧
      s.port.entryWepStatus f.rxWi.wirelessCliId = .encryption2Enabled then
    if micOk then s.staRxDataFrameAnnounce hz { f with dataSize := f.dataSize - 8 } p now32
    else s.release p
  else s.staRxDataFrameAnnounce hz f p now32

/-- `STAHandleRxDataFrame` -/
def staHandleRxDataFrame (hz : Ba.OsHz) (s : RxOwner) (station : RxStation) (a : RxAnswers)
    (pHeader : List UInt8) (rxWi : RxWi) (rxInfo : RxInfo) (p : Packet) : RxOwner :=
  -- each of the tests in front of the headers releases
  if staAdmits station pHeader rxWi rxInfo = false then s.release p
  else
    match decryptBySoftware (stripHeaders station pHeader rxWi rxInfo) a.softDecrypted with
    | none => s.release p
    | some d =>
      let f : RxFrame :=
        { toRxData := d
          eap := false
          tid := a.tid
          allocs := a.allocs
          duplicated := a.duplicated
          clear := ! wep pHeader }
      if d.rxInfo.bcast ∨ d.rxInfo.mcast then
        if moreFrag d.pHeader then s.release p
        else if frDs d.pHeader ∧ addr3 d.pHeader = station.currentAddress then s.release p
        else s.indicateLegacyPacket hz f p a.now32
      else if d.rxInfo.u2m then
        if frag d.pHeader = 0 ∧ moreFrag d.pHeader = false then
          s.handleComplete hz f p false a.micOk a.now32
        else
          match s.rtmpDeFragmentDataFrame d.toRxBlk p a.pNewFragPacket with
          | (s, none) => s
          | (s, some (whole, pRet)) =>
            s.handleComplete hz { f with toRxBlk := whole } pRet true a.micOk a.now32
      else s.release p

/-- `STAHandleRxMgmtFrame`: the frame is reported to the MLME in a copy, if it is not too large. -/
def staHandleRxMgmtFrame (s : RxOwner) (p : Packet) : RxOwner :=
  s.release p

/-- `STAHandleRxControlFrame` -/
def staHandleRxControlFrame (hz : Ba.OsHz) (s : RxOwner) (a : RxAnswers) (pHeader : List UInt8)
    (rxWi : RxWi) (p : Packet) : RxOwner :=
  if subType pHeader = subtypeBlockAckReq then
    (s.reorder hz (.blockAckReq a.halting rxWi.wirelessCliId rxWi.mpduByteCnt.toNat
      (barControlTid pHeader) (baStartSeq pHeader))).release p
  else s.release p

/-- `STA_MonPktSend` and `send_monitor_packets` -/
def staMonPktSend (s : RxOwner) (a : RxAnswers) (dataSize : UInt16) (p : Packet) : RxOwner :=
  if dataSize < 10 then s.release p
  else if rxBufferAggreSize < dataSize.toNat + prism2HeaderSize then s.release p
  else if a.expandHead = false then s.release p
  else s.announceOrForward p

/-- The body of the loop, behind `GetPacketFromRxRing`. -/
def handlePass (hz : Ba.OsHz) (s : RxOwner) (a : RxAnswers) (i : Pass) (p : Packet) : RxOwner :=
  match i.outcome with
  | .otherPort => s.release p
  | .short => s
  | .monitor => s.staMonPktSend a i.packet.rxWi.mpduByteCnt p
  | .ate => s.release p
  | .rxError => s.release p
  | .data _ =>
    s.staHandleRxDataFrame hz i.ad a i.packet.pHeader i.packet.rxWi (.ofOctets i.packet.rxInfo) p
  | .mgmt => s.staHandleRxMgmtFrame p
  | .cntl => s.staHandleRxControlFrame hz a i.packet.pHeader i.packet.rxWi p
  | .otherType => s.release p

/-- A pass of the loop. -/
def pass (hz : Ba.OsHz) (s : RxOwner) (a : RxAnswers) (i : Pass) : RxOwner :=
  { s with port := a.port }.allocate.handlePass hz a i s.nextPacket

/-- The passes of the loop, from the `n`-th on. -/
def passes (hz : Ba.OsHz) (answers : Nat → RxAnswers) : Nat → RxOwner → List Pass → RxOwner
  | _, s, [] => s
  | n, s, i :: run => passes hz answers (n + 1) (s.pass hz (answers n) i) run

end RxOwner

/-- A bulk-in buffer is worked off, or something else happens to the sessions. -/
inductive RxOwnerOp
  | rxDone (ctx : RxContext) (env : Nat → RxEnv) (answers : Nat → RxAnswers)
  | session (op : Ba.Op) (other : ∀ blk now32, op ≠ .indicate blk now32)

def RxOwner.step (hz : Ba.OsHz) (s : RxOwner) : RxOwnerOp → RxOwner
  | .rxDone ctx env answers => passes hz answers 0 s (staRxDoneInterruptHandle env 0 ctx)
  | .session op _ => s.reorder hz op

/-- The receive path when the interface comes up: the reassembly buffer has its packet. -/
def RxOwner.start (port : RxPort) (mem : List UInt8) (freelist : Nat) (held : Packet → RxFrame) :
    RxOwner where
  port := port
  fragFrame := ⟨mem, 0, 0, 0⟩
  pFragPacket := 0
  ba := Ba.baTableInit freelist
  held := held
  nextPacket := 1
  fates := []

/-! ## 3. What is to become of a packet -/

namespace RxOwner

/-- How often a packet was released, indicated, waits in a reorder list, or is the packet of the
reassembly buffer. -/
def times (s : RxOwner) (p : Nat) : Nat :=
  (s.fates.map Fate.packet).count p + Ba.timesBuffered s.ba p +
    if s.pFragPacket = p then 1 else 0

/-- **Every packet was disposed of exactly once.** -/
def DisposedOnce (s : RxOwner) : Prop :=
  ∀ p < s.nextPacket, s.times p = 1

end RxOwner

/-- A frame that did not come from another port and has fewer than 14 octets. -/
def TooShort (p : RxPacket) : Prop :=
  (p.rxFceInfo.getD 3 0).toNat / 64 = 0 ∧ p.rxWi.mpduByteCnt.toNat < 14

/-- The loop cuts no such frame out. -/
def RxOwner.NoneTooShort : RxOwnerOp → Prop
  | .rxDone ctx env _ => ∀ i ∈ staRxDoneInterruptHandle env 0 ctx, ¬ TooShort i.packet
  | .session _ _ => True

/-! ## 4. The packet in hand -/

/-- What a function does with the packets in hand: it was given those of `before` and still has those
of `after`; what it allocated on the way it has in hand or has put away. -/
structure RxOwner.Hands (s s' : RxOwner) (before after : List Packet) : Prop where
  next : s.nextPacket ≤ s'.nextPacket
  times : ∀ q, s'.times q + after.count q =
    s.times q + before.count q + if s.nextPacket ≤ q ∧ q < s'.nextPacket then 1 else 0
  accounted : Ba.Accounted s'.ba

namespace RxOwner

section

variable {s s' s₁ s₂ s₃ : RxOwner} {before after ps₁ ps₂ ps₃ : List Packet} {p : Packet}
  {f : RxFrame} {hz : Ba.OsHz} {now32 : Ba.Ulong}

theorem Hands.refl (h : Ba.Accounted s.ba) (ps : List Packet) : Hands s s ps ps where
  next := Nat.le_refl _
  times := by
    intro q
    rw [if_neg (by omega), Nat.add_zero]
  accounted := h

theorem Hands.trans (h₁ : Hands s₁ s₂ ps₁ ps₂) (h₂ : Hands s₂ s₃ ps₂ ps₃) :
    Hands s₁ s₃ ps₁ ps₃ where
  next := Nat.le_trans h₁.next h₂.next
  times := by
    intro q
    have hle₁ := h₁.next
    have hle₂ := h₂.next
    have ht₁ := h₁.times q
    have ht₂ := h₂.times q
    -- a packet was allocated in the one part or in the other
    split_ifs at ht₁ ht₂ ⊢ <;> omega
  accounted := h₂.accounted

/-- More packets in hand, that are not touched. -/
theorem Hands.frame (h : Hands s s' before after) (ps : List Packet) :
    Hands s s' (before ++ ps) (after ++ ps) where
  next := h.next
  times := by
    intro q
    have ht := h.times q
    rw [List.count_append, List.count_append]
    omega
  accounted := h.accounted

/-- Of the state only what holds packets matters. -/
theorem Hands.congr {t : RxOwner} (h : Hands t s' before after)
    (hnext : s.nextPacket = t.nextPacket) (htimes : ∀ q, s.times q = t.times q) :
    Hands s s' before after where
  next := hnext ▸ h.next
  times := by
    intro q
    rw [hnext, htimes]
    exact h.times q
  accounted := h.accounted

theorem times_fates {fate : Fate} (q : Nat) :
    times { s with fates := s.fates ++ [fate] } q = s.times q + [fate.packet].count q := by
  unfold times
  dsimp only
  rw [List.map_append, List.count_append, List.map_singleton]
  omega

/-- **A packet is released**, or goes up. -/
theorem fate_hands (h : Ba.Accounted s.ba) (fate : Fate) :
    Hands s { s with fates := s.fates ++ [fate] } [fate.packet] [] where
  next := Nat.le_refl _
  times := by
    intro q
    rw [times_fates, if_neg (by dsimp only; omega), List.count_nil]
  accounted := h

theorem release_hands (h : Ba.Accounted s.ba) (p : Packet) : Hands s (s.release p) [p] [] :=
  fate_hands h (.released p)

theorem announceOrForward_hands (h : Ba.Accounted s.ba) (p : Packet) :
    Hands s (s.announceOrForward p) [p] [] :=
  fate_hands h (.indicated p)

/-- **A packet is allocated.** -/
theorem allocate_hands (h : Ba.Accounted s.ba) : Hands s s.allocate [] [s.nextPacket] where
  next := Nat.le_succ _
  times := by
    intro q
    have htimes : s.allocate.times q = s.times q := rfl
    have hnext : s.allocate.nextPacket = s.nextPacket + 1 := rfl
    rw [htimes, hnext, List.count_nil, Nat.add_zero, List.count_singleton]
    by_cases hq : s.nextPacket = q
    · rw [if_pos (beq_iff_eq.2 hq), if_pos (by omega)]
    · rw [if_neg (fun heq => hq (beq_iff_eq.1 heq)), if_neg (by omega)]
  accounted := h

theorem indicateLegacy_hands (h : Ba.Accounted s.ba) (f : RxFrame) (p : Packet) :
    Hands s (s.indicateLegacy f p) [p] [] := by
  unfold indicateLegacy
  split
  · exact release_hands h p
  · exact announceOrForward_hands h p

theorem indicateLegacyOrAmsdu_hands (h : Ba.Accounted s.ba) (f : RxFrame) (p : Packet) :
    Hands s (s.indicateLegacyOrAmsdu f p) [p] [] := by
  unfold indicateLegacyOrAmsdu
  split
  · exact release_hands h p
  · split
    · split
      · exact release_hands h p
      · split
        · exact indicateLegacy_hands h f p
        · exact release_hands h p
    · exact indicateLegacy_hands h f p

/-- What the sessions give back is disposed of. -/
theorem dispose_hands (h : Ba.Accounted s.ba) (d : Ba.Disposal) :
    Hands s (s.dispose d) [d.packet] [] := by
  cases d with
  | announce mpdu =>
    rw [dispose]
    split
    · exact release_hands h mpdu.pPacket
    · exact announceOrForward_hands h mpdu.pPacket
  | legacy blk => exact indicateLegacyOrAmsdu_hands h _ blk.pRxPacket
  | release packet => exact release_hands h packet

theorem foldl_dispose_hands (log : List Ba.Disposal) :
    ∀ {s : RxOwner}, Ba.Accounted s.ba →
      Hands s (log.foldl dispose s) (log.map Ba.Disposal.packet) [] := by
  induction log with
  | nil =>
    intro s h
    exact Hands.refl h []
  | cons d log ih =>
    intro s h
    have hd := dispose_hands h d
    exact (hd.frame (log.map Ba.Disposal.packet)).trans (ih hd.accounted)

theorem accounted_sessions (h : Ba.Accounted s.ba) : Ba.Accounted s.sessions :=
  ⟨h.table.log, h.outside⟩

/-- **An operation on the sessions**: the packet it brings in is kept or disposed of, and so is
every one it takes out of a list. -/
theorem reorder_hands (hz : Ba.OsHz) (h : Ba.Accounted s.ba) (op : Ba.Op) :
    Hands s (s.reorder hz op) (Ba.receivedBy op) [] := by
  have hbooked := Ba.step_booked hz op (accounted_sessions h)
  have hacc := hbooked.accounted (accounted_sessions h)
  have hstep : Hands s { s with ba := Ba.step hz s.sessions op } (Ba.receivedBy op)
      ((Ba.step hz s.sessions op).log.map Ba.Disposal.packet) := by
    refine ⟨Nat.le_refl _, fun q => ?_, hacc⟩
    have hpackets := hbooked.exchange.packets q
    have hbuffered : Ba.timesBuffered s.sessions q = Ba.timesBuffered s.ba q := rfl
    have hlog : s.sessions.log = [] := rfl
    rw [hbuffered, hlog, List.map_nil, List.count_nil] at hpackets
    rw [if_neg (by dsimp only; omega)]
    unfold times
    dsimp only
    omega
  exact hstep.trans (foldl_dispose_hands _ hacc)

/-! ## 5. A data frame -/

theorem indicateLegacyPacket_hands (h : Ba.Accounted s.ba) (f : RxFrame) (p : Packet)
    (now32 : Ba.Ulong) : Hands s (s.indicateLegacyPacket hz f p now32) [p] [] := by
  unfold indicateLegacyPacket
  split
  · exact release_hands h p
  · split
    · -- the packet is in hand while the list is drained
      have hflush := reorder_hands hz h (.flush f.rxWi.wirelessCliId f.tid now32)
      exact (hflush.frame [p]).trans (announceOrForward_hands hflush.accounted p)
    · exact announceOrForward_hands h p

theorem indicateAmpduPacket_hands (h : Ba.Accounted s.ba) (f : RxFrame) (p : Packet)
    (now32 : Ba.Ulong) : Hands s (s.indicateAmpduPacket hz f p now32) [p] [] := by
  have hkeep : Hands { s with held := fun q => if q = p then f else s.held q }
      (s.indicateAmpduPacket hz f p now32) [p] [] :=
    reorder_hands hz (by exact h) (.indicate (f.toBlk p) now32)
  exact hkeep.congr rfl fun _ => rfl

theorem cmmRxRalinkFrameIndicate_hands (h : Ba.Accounted s.ba) (f : RxFrame) (p : Packet) :
    Hands s (s.cmmRxRalinkFrameIndicate f p) [p] [] := by
  unfold cmmRxRalinkFrameIndicate
  dsimp only
  split
  · split
    · exact announceOrForward_hands h p
    · exact release_hands h p
  · exact release_hands h p

theorem cmmRxNonRalinkFrameIndicate_hands (h : Ba.Accounted s.ba) (f : RxFrame) (p : Packet)
    (now32 : Ba.Ulong) : Hands s (s.cmmRxNonRalinkFrameIndicate hz f p now32) [p] [] := by
  unfold cmmRxNonRalinkFrameIndicate
  split
  · exact indicateAmpduPacket_hands h f p now32
  · split
    · exact release_hands h p
    · exact indicateLegacyPacket_hands h f p now32

theorem staRxEapolFrameIndicate_hands (h : Ba.Accounted s.ba) (f : RxFrame) (p : Packet)
    (now32 : Ba.Ulong) : Hands s (s.staRxEapolFrameIndicate hz f p now32) [p] [] := by
  unfold staRxEapolFrameIndicate
  split
  · exact indicateLegacyPacket_hands h f p now32
  · exact release_hands h p

theorem staRxDataFrameAnnounce_hands (h : Ba.Accounted s.ba) (f : RxFrame) (p : Packet)
    (now32 : Ba.Ulong) : Hands s (s.staRxDataFrameAnnounce hz f p now32) [p] [] := by
  unfold staRxDataFrameAnnounce
  dsimp only
  split
  · split
    · exact release_hands h p
    · split
      · exact release_hands h p
      · split
        · exact release_hands h p
        · split
          · exact cmmRxRalinkFrameIndicate_hands h _ p
          · exact cmmRxNonRalinkFrameIndicate_hands h _ p now32
  · split
    · exact indicateAmpduPacket_hands h _ p now32
    · exact staRxEapolFrameIndicate_hands h _ p now32

/-- The packet of the reassembly buffer is taken out, and a fresh one put in. -/
theorem takeFragPacket_hands (h : Ba.Accounted s.ba) :
    Hands s { s with pFragPacket := s.nextPacket }.allocate [] [s.pFragPacket] where
  next := Nat.le_succ _
  times := by
    intro q
    unfold times allocate
    dsimp only
    rw [List.count_nil, Nat.add_zero, List.count_singleton]
    simp only [beq_iff_eq]
    split_ifs <;> omega
  accounted := h

/-- **Reassembly**: the fragment is disposed of, and a complete frame is in hand instead. -/
theorem rtmpDeFragmentDataFrame_hands (h : Ba.Accounted s.ba) (pRxBlk : RxBlk) (p : Packet)
    (pNew : Option (List UInt8)) :
    Hands s (s.rtmpDeFragmentDataFrame pRxBlk p pNew).1 [p]
      ((s.rtmpDeFragmentDataFrame pRxBlk p pNew).2.toList.map Prod.snd) := by
  unfold rtmpDeFragmentDataFrame
  dsimp only
  generalize Data.rtmpDeFragmentDataFrame s.fragFrame pRxBlk pNew = res
  have hrelease : Hands s ({ s with fragFrame := res.1 }.release p) [p] [] :=
    Hands.congr (t := { s with fragFrame := res.1 }) (release_hands (by exact h) p) rfl
      fun _ => rfl
  cases res.2 with
  | none => exact hrelease
  | some whole => exact hrelease.trans (takeFragPacket_hands hrelease.accounted)

theorem handleComplete_hands (h : Ba.Accounted s.ba) (f : RxFrame) (p : Packet)
    (bFragment micOk : Bool) (now32 : Ba.Ulong) :
    Hands s (s.handleComplete hz f p bFragment micOk now32) [p] [] := by
  unfold handleComplete
  split
  · split
    · exact staRxDataFrameAnnounce_hands h _ p now32
    · exact release_hands h p
  · exact staRxDataFrameAnnounce_hands h f p now32

/-- **A data frame is disposed of on every path.** -/
theorem staHandleRxDataFrame_hands (h : Ba.Accounted s.ba) (station : RxStation) (a : RxAnswers)
    (pHeader : List UInt8) (rxWi : RxWi) (rxInfo : RxInfo) (p : Packet) :
    Hands s (s.staHandleRxDataFrame hz station a pHeader rxWi rxInfo p) [p] [] := by
  unfold staHandleRxDataFrame
  split
  · exact release_hands h p
  · cases decryptBySoftware (stripHeaders station pHeader rxWi rxInfo) a.softDecrypted with
    | none => exact release_hands h p
    | some d =>
      dsimp only
      split
      · -- broadcast and multicast
        split
        · exact release_hands h p
        · split
          · exact release_hands h p
          · exact indicateLegacyPacket_hands h _ p a.now32
      · split
        · split
          · exact handleComplete_hands h _ p false a.micOk a.now32
          · have hdefrag := rtmpDeFragmentDataFrame_hands h d.toRxBlk p a.pNewFragPacket
            generalize s.rtmpDeFragmentDataFrame d.toRxBlk p a.pNewFragPacket = res at hdefrag
            obtain ⟨s', ret⟩ := res
            cases ret with
            | none => exact hdefrag
            | some ret =>
              exact hdefrag.trans (handleComplete_hands hdefrag.accounted _ ret.2 true a.micOk
                a.now32)
        · exact release_hands h p

/-! ## 6. The loop -/

theorem staHandleRxControlFrame_hands (h : Ba.Accounted s.ba) (a : RxAnswers)
    (pHeader : List UInt8) (rxWi : RxWi) (p : Packet) :
    Hands s (s.staHandleRxControlFrame hz a pHeader rxWi p) [p] [] := by
  unfold staHandleRxControlFrame
  split
  · have hbar := reorder_hands hz h (.blockAckReq a.halting rxWi.wirelessCliId
      rxWi.mpduByteCnt.toNat (barControlTid pHeader) (baStartSeq pHeader))
    exact (hbar.frame [p]).trans (release_hands hbar.accounted p)
  · exact release_hands h p

theorem staMonPktSend_hands (h : Ba.Accounted s.ba) (a : RxAnswers) (dataSize : UInt16)
    (p : Packet) : Hands s (s.staMonPktSend a dataSize p) [p] [] := by
  unfold staMonPktSend
  split
  · exact release_hands h p
  · split
    · exact release_hands h p
    · split
      · exact release_hands h p
      · exact announceOrForward_hands h p

/-- What a pass leaves in hand. -/
def leftBy (i : Pass) (p : Packet) : List Packet :=
  match i.outcome with
  | .short => [p]
  | _ => []

/-- **The body of the loop**: every packet is disposed of, but for that of a short frame. -/
theorem handlePass_hands (h : Ba.Accounted s.ba) (a : RxAnswers) (i : Pass) (p : Packet) :
    Hands s (s.handlePass hz a i p) [p] (leftBy i p) := by
  unfold handlePass leftBy
  cases i.outcome with
  | otherPort => exact release_hands h p
  | short => exact Hands.refl h [p]
  | monitor => exact staMonPktSend_hands h a _ p
  | ate => exact release_hands h p
  | rxError => exact release_hands h p
  | data d => exact staHandleRxDataFrame_hands h i.ad a _ _ _ p
  | mgmt => exact release_hands h p
  | cntl => exact staHandleRxControlFrame_hands h a _ _ p
  | otherType => exact release_hands h p

theorem pass_hands (hz : Ba.OsHz) (h : Ba.Accounted s.ba) (a : RxAnswers) (i : Pass) :
    Hands s (s.pass hz a i) [] (leftBy i s.nextPacket) := by
  have hget : Hands s { s with port := a.port }.allocate [] [s.nextPacket] :=
    Hands.congr (t := { s with port := a.port }) (allocate_hands (by exact h)) rfl fun _ => rfl
  exact hget.trans (handlePass_hands hget.accounted a i s.nextPacket)

theorem leftBy_eq_nil_iff {i : Pass} {p : Packet} : leftBy i p = [] ↔ i.outcome ≠ .short := by
  unfold leftBy
  cases i.outcome with
  | short => exact ⟨fun h => absurd h (List.cons_ne_nil _ _), fun h => absurd rfl h⟩
  | _ => exact ⟨fun _ => (nomatch ·), fun _ => rfl⟩

/-- **The loop**: something is left in hand exactly if a frame was short. -/
theorem passes_hands (hz : Ba.OsHz) (answers : Nat → RxAnswers) (run : List Pass) :
    ∀ (n : Nat) {s : RxOwner}, Ba.Accounted s.ba →
      ∃ left, Hands s (passes hz answers n s run) [] left ∧
        (left = [] ↔ ∀ i ∈ run, i.outcome ≠ .short) := by
  induction run with
  | nil =>
    intro n s h
    exact ⟨[], Hands.refl h [], by simp⟩
  | cons i run ih =>
    intro n s h
    have hpass := pass_hands hz h (answers n) i
    obtain ⟨left, hrest, hleft⟩ := ih (n + 1) hpass.accounted
    refine ⟨left ++ leftBy i s.nextPacket, hpass.trans (hrest.frame _), ?_⟩
    rw [List.append_eq_nil_iff, hleft, leftBy_eq_nil_iff, List.forall_mem_cons, and_comm]

/-- A pass leaves its packet exactly if the frame is too short. -/
theorem outcome_short_iff {ad : RxStation} {p : RxPacket} :
    handleRxPacket ad p = .short ↔ TooShort p := by
  unfold handleRxPacket TooShort
  dsimp only
  split_ifs with hport hshort hmonitor hate herror htype hadmits hmgmt hcntl
  · exact ⟨(nomatch ·), fun h => absurd h.1 hport⟩
  · exact ⟨fun _ => ⟨not_not.1 hport, hshort⟩, fun _ => rfl⟩
  all_goals exact ⟨(nomatch ·), fun h => absurd h.2 hshort⟩

theorem noneTooShort_iff {env : Nat → RxEnv} {ctx : RxContext} :
    (∀ i ∈ staRxDoneInterruptHandle env 0 ctx, i.outcome ≠ .short) ↔
      ∀ i ∈ staRxDoneInterruptHandle env 0 ctx, ¬ TooShort i.packet := by
  refine forall₂_congr fun i hi => ?_
  rw [(pass_staRxDoneInterruptHandle env 0 ctx i hi).1]
  exact not_congr outcome_short_iff

/-! ## 7. Runs -/

/-- **The invariant**: every packet that was allocated is in one place, and no other is anywhere. -/
structure Settled (s : RxOwner) : Prop where
  accounted : Ba.Accounted s.ba
  times : ∀ q, s.times q = if q < s.nextPacket then 1 else 0

theorem Settled.disposedOnce (h : Settled s) : DisposedOnce s := by
  intro p hp
  rw [h.times, if_pos hp]

theorem settled_start {port : RxPort} {mem : List UInt8} {freelist : Nat}
    {held : Packet → RxFrame} : Settled (start port mem freelist held) where
  accounted := Ba.Accounted.init freelist
  times := by
    intro q
    have hbuffered : Ba.timesBuffered (Ba.baTableInit freelist) q = 0 :=
      Finset.sum_eq_zero fun _ _ => rfl
    unfold RxOwner.times start
    dsimp only
    rw [hbuffered, List.map_nil, List.count_nil]
    split_ifs <;> omega

/-- What leaves nothing in hand keeps it. -/
theorem Settled.step (h : Settled s) (hhands : Hands s s' [] []) : Settled s' where
  accounted := hhands.accounted
  times := by
    intro q
    have hnext := hhands.next
    have hq := hhands.times q
    rw [h.times, List.count_nil] at hq
    split_ifs at hq ⊢ <;> omega

/-- What leaves a packet in hand has lost it: it was allocated on the way, and is nowhere. -/
theorem Settled.lost {left : List Packet} (h : Settled s) (hhands : Hands s s' [] left)
    (hleft : left ≠ []) : ¬ DisposedOnce s' := by
  intro hall
  obtain ⟨q, hmem⟩ : ∃ q : Nat, q ∈ left := List.exists_mem_of_ne_nil left hleft
  have hcount : 0 < left.count q := List.count_pos_iff.2 hmem
  have hq := hhands.times q
  have hnext := hhands.next
  rw [h.times, List.count_nil] at hq
  have hlt : q < s'.nextPacket := by
    by_contra hge
    split_ifs at hq <;> omega
  have hone := hall q hlt
  split_ifs at hq <;> omega

/-- What an operation leaves in hand. -/
theorem step_hands (hz : Ba.OsHz) (h : Ba.Accounted s.ba) (op : RxOwnerOp) :
    ∃ left, Hands s (s.step hz op) [] left ∧ (left = [] ↔ NoneTooShort op) := by
  cases op with
  | rxDone ctx env answers =>
    obtain ⟨left, hhands, hleft⟩ :=
      passes_hands hz answers (staRxDoneInterruptHandle env 0 ctx) 0 h
    exact ⟨left, hhands, hleft.trans noneTooShort_iff⟩
  | session op other =>
    have hnone : Ba.receivedBy op = [] := by
      cases op with
      | indicate blk now32 => exact absurd rfl (other blk now32)
      | _ => rfl
    have hhands := reorder_hands hz h op
    rw [hnone] at hhands
    exact ⟨[], hhands, fun _ => trivial, fun _ => rfl⟩

end

/-- **Packets over runs.** Whatever buffers are worked off and whatever happens to the sessions in
between: every packet is disposed of exactly once, in every state reached, exactly if no buffer
holds a frame of fewer than 14 octets that did not come from another port. -/
theorem disposedOnce_iff (hz : Ba.OsHz) (port : RxPort) (mem : List UInt8) (freelist : Nat)
    (held : Packet → RxFrame) (ops : List RxOwnerOp) :
    (∀ done rest, ops = done ++ rest →
        (Run.final (step hz) (start port mem freelist held) done).DisposedOnce) ↔
      ∀ op ∈ ops, NoneTooShort op := by
  rw [← @Run.stepsMeet_forall _ _ (step hz) _ _ (start port mem freelist held)]
  refine Run.always_iff Settled DisposedOnce (fun s h => h.disposedOnce) ?_ ?_ settled_start
  · intro s op h hok
    obtain ⟨left, hhands, hleft⟩ := step_hands hz h.accounted op
    rw [hleft.2 hok] at hhands
    exact h.step hhands
  · intro s op h hno
    obtain ⟨left, hhands, hleft⟩ := step_hands hz h.accounted op
    exact h.lost hhands fun hnil => hno (hleft.1 hnil)

end RxOwner

namespace Example

/-- A buffer with one frame of 28 octets whose RXWI says that the MPDU has 10. -/
def shortMpdu : RxContext where
  transferBuffer := [28, 0, 0, 0] ++ List.replicate 4 0 ++ [0, 0, 10, 0] ++ List.replicate 24 0
  bulkInOffset := 36
  readPosition := 0
  readPosition_le := longMpdu.readPosition_le

def openPort : RxPort where
  wepStatus := .wepDisabled
  portSecured := true
  mediaConnected := true
  bDisableReordering := false
  wpaSupplicantUp := false
  ieee8021X := false
  entryWepStatus := fun _ => .wepDisabled

def allGoesWell (_ : Nat) : RxAnswers where
  port := openPort
  tid := 0
  softDecrypted := none
  pNewFragPacket := some []
  micOk := true
  allocs := fun _ => ⟨true, true⟩
  duplicated := true
  halting := false
  expandHead := true
  now32 := 0

def noFrame (_ : Packet) : RxFrame where
  toRxBlk := ⟨[], 0, 0⟩
  flags := ⟨false, false, false, false, false, false, false⟩
  userPriority := 0
  rxInfo := ⟨false, false, false, false, false, false, 0, false, false, false⟩
  rxWi := ⟨0, 0, 0, 0⟩
  eap := false
  tid := 0
  allocs := fun _ => ⟨true, true⟩
  duplicated := true
  clear := false

/-- **A packet is leaked**: that of a frame with 10 octets. -/
theorem not_disposedOnce_shortMpdu :
    ¬ ∀ (hz : Ba.OsHz) (port : RxPort) (mem : List UInt8) (freelist : Nat)
      (held : Packet → RxFrame) (ops : List RxOwnerOp),
      (Run.final (RxOwner.step hz) (RxOwner.start port mem freelist held) ops).DisposedOnce := by
  intro h
  have hall := h ⟨100, by decide⟩ openPort [] 256 noFrame
    [.rxDone shortMpdu upAndRunning allGoesWell]
  have hok : frameOk shortMpdu = true := by decide
  have hrun : ∃ rest, staRxDoneInterruptHandle upAndRunning 0 shortMpdu =
      ⟨packetAt shortMpdu [], station, handleRxPacket station (packetAt shortMpdu [])⟩ :: rest := by
    rw [staRxDoneInterruptHandle, if_neg (by decide), dif_pos hok]
    exact ⟨_, rfl⟩
  obtain ⟨rest, hrun⟩ := hrun
  obtain ⟨left, hhands, hleft⟩ := RxOwner.step_hands ⟨100, by decide⟩
    (s := RxOwner.start openPort [] 256 noFrame) (Ba.Accounted.init 256)
    (.rxDone shortMpdu upAndRunning allGoesWell)
  have hshort : TooShort (packetAt shortMpdu []) := ⟨by decide, by decide⟩
  refine RxOwner.settled_start.lost hhands (fun hnil => ?_) hall
  have hnone : ∀ i ∈ staRxDoneInterruptHandle upAndRunning 0 shortMpdu, ¬ TooShort i.packet :=
    hleft.1 hnil
  rw [hrun] at hnone
  exact hnone _ List.mem_cons_self hshort

end Example

end Mt7601.Data
