/-
# The bulk-in buffer

The device hands over a buffer of frames, each with its DMA length in front. `GetPacketFromRxRing`
cuts the next one out and copies it to a packet of its own, `STARxDoneInterruptHandle` does this
until there is none left. A frame in the buffer is

    DMA field (4) | RXINFO (4) | RXWI (24), MPDU, padding: ThisFrameLen octets

and the last 4 octets of it are the `RXFCE_INFO`. The byte count of the MPDU is compared with
`ThisFrameLen`, which counts the RXWI as well.
-/
import Mt7601.Data.RxData

namespace Mt7601.Data

open Header

/-! ## 1. `GetPacketFromRxRing` -/

/-- `RXDMA_FIELD_SIZE` -/
def rxdmaFieldSize : Nat := 4
/-- `RXINFO_SIZE` -/
def rxinfoSize : Nat := 4
/-- `chipCap.RXWISize` -/
def rxwiSize : Nat := 24
/-- `sizeof(RXFCE_INFO)` -/
def rxfceInfoSize : Nat := 4

/-- The readable `RX_CONTEXT`: its buffer, how far it is filled, and the read position in it. -/
structure RxContext where
  transferBuffer : List UInt8
  bulkInOffset : Nat
  readPosition : Nat
  readPosition_le : readPosition ≤ bulkInOffset

/-- A packet cut out of the buffer. -/
structure RxPacket where
  /-- where the frame starts in the buffer -/
  readPosition : Nat
  thisFrameLen : Nat
  /-- the octets of the packet; it was allocated with `ThisFrameLen` of them -/
  packet : List UInt8
  /-- the memory behind the packet -/
  behind : List UInt8
  rxInfo : List UInt8
  rxFceInfo : List UInt8

/-- The read position behind a frame. -/
def RxPacket.next (p : RxPacket) : Nat :=
  p.readPosition + (p.thisFrameLen + rxdmaFieldSize + rxinfoSize)

/-- `ThisFrameLen` -/
def thisFrameLenAt (transferBuffer : List UInt8) (readPosition : Nat) : Nat :=
  (transferBuffer.getD readPosition 0).toNat + (transferBuffer.getD (readPosition + 1) 0).toNat * 256

/-- The frame at the read position. -/
def packetAt (ctx : RxContext) (behind : List UInt8) : RxPacket :=
  let thisFrameLen := thisFrameLenAt ctx.transferBuffer ctx.readPosition
  let pData := ctx.readPosition + rxdmaFieldSize
  { readPosition := ctx.readPosition
    thisFrameLen := thisFrameLen
    packet := Mem.read ctx.transferBuffer (pData + rxinfoSize) thisFrameLen
    behind := behind
    rxInfo := Mem.read ctx.transferBuffer pData rxinfoSize
    rxFceInfo := Mem.read ctx.transferBuffer (pData + thisFrameLen) rxfceInfoSize }

/-- The checks of `GetPacketFromRxRing`. -/
def frameOk (ctx : RxContext) : Bool :=
  let rxBufferLength := ctx.bulkInOffset - ctx.readPosition
  let thisFrameLen := thisFrameLenAt ctx.transferBuffer ctx.readPosition
  let rxWi := RxWi.ofOctets
    (ctx.transferBuffer.drop (ctx.readPosition + rxdmaFieldSize + rxinfoSize))
  if rxBufferLength < rxdmaFieldSize + rxwiSize + rxinfoSize + rxfceInfoSize then false
  else if thisFrameLen = 0 then false
  else if thisFrameLen % 4 ≠ 0 then false
  else if rxBufferLength < thisFrameLen + 8 then false
  else rxWi.mpduByteCnt.toNat ≤ thisFrameLen

theorem frameOk_bounds {ctx : RxContext} (h : frameOk ctx = true) :
    0 < thisFrameLenAt ctx.transferBuffer ctx.readPosition ∧
      ctx.readPosition + thisFrameLenAt ctx.transferBuffer ctx.readPosition + 8 ≤
        ctx.bulkInOffset := by
  have hle := ctx.readPosition_le
  rw [frameOk] at h
  split_ifs at h with hvalid hzero halign hrange
  omega

/-- The context with the read position behind the frame. -/
def RxContext.advance (ctx : RxContext) (h : frameOk ctx = true) : RxContext where
  transferBuffer := ctx.transferBuffer
  bulkInOffset := ctx.bulkInOffset
  readPosition := (packetAt ctx []).next
  readPosition_le := by
    have hbounds := frameOk_bounds h
    simp only [RxPacket.next, packetAt, rxdmaFieldSize, rxinfoSize]
    omega

/-! ## 2. `STARxDoneInterruptHandle` -/

/-- What is done with a packet. -/
inductive Outcome
  /-- a packet from another port -/
  | otherPort
  /-- fewer than 14 octets: nothing is done, the packet is not released either -/
  | short
  | monitor
  | ate
  | rxError
  /-- a data frame, with its headers taken off if it was not dropped before -/
  | data (stripped : Option RxData)
  | mgmt
  | cntl
  | otherType

/-- The memory from the 802.11 header of a packet on. -/
def RxPacket.pHeader (p : RxPacket) : List UInt8 :=
  (p.packet ++ p.behind).drop rxwiSize

def RxPacket.rxWi (p : RxPacket) : RxWi := RxWi.ofOctets (p.packet ++ p.behind)

/-- The body of the loop. -/
def handleRxPacket (ad : RxStation) (p : RxPacket) : Outcome :=
  let rxInfo := RxInfo.ofOctets p.rxInfo
  -- `pFceInfo->info_type`
  if (p.rxFceInfo.getD 3 0).toNat / 64 ≠ 0 then .otherPort
  else if p.rxWi.mpduByteCnt.toNat < 14 then .short
  else if ad.monitorOn then .monitor
  else if ad.ateOn then .ate
  else if rtmpCheckRxError ad p.pHeader p.rxWi rxInfo then
    if type p.pHeader = btypeData then
      if staAdmits ad p.pHeader p.rxWi rxInfo then
        .data (some (stripHeaders ad p.pHeader p.rxWi rxInfo))
      else .data none
    else if type p.pHeader = btypeMgmt then .mgmt
    else if type p.pHeader = btypeCntl then .cntl
    else .otherType
  else .rxError

/-- What the loop meets in its `n`-th pass. -/
structure RxEnv where
  /-- one of the adapter flags stops the loop -/
  stop : Bool
  /-- the memory behind the new packet, if one can be allocated -/
  packet : Option (List UInt8)
  ad : RxStation

/-- A pass of the loop: the packet, the adapter as it finds it, and what is done. -/
structure Pass where
  packet : RxPacket
  ad : RxStation
  outcome : Outcome

/-- The loop of `STARxDoneInterruptHandle`. -/
def staRxDoneInterruptHandle (env : Nat → RxEnv) (n : Nat) (ctx : RxContext) : List Pass :=
  if (env n).stop then []
  else if h : frameOk ctx = true then
    match (env n).packet with
    | none => []
    | some behind =>
      let p := packetAt ctx behind
      ⟨p, (env n).ad, handleRxPacket (env n).ad p⟩ ::
        staRxDoneInterruptHandle env (n + 1) (ctx.advance h)
  else []
termination_by ctx.bulkInOffset - ctx.readPosition
decreasing_by
  -- every frame has an octet at least and ends in the buffer
  have hbounds := frameOk_bounds h
  simp only [RxContext.advance, RxPacket.next, packetAt, rxdmaFieldSize, rxinfoSize]
  omega

/-! ## 3. What the frames are to be -/

/-- Frames one behind the other, from `lo` on and not beyond `hi`. -/
def Consecutive (hi : Nat) : Nat → List RxPacket → Prop
  | lo, [] => lo ≤ hi
  | lo, p :: ps => p.readPosition = lo ∧ lo < p.next ∧ p.next ≤ hi ∧ Consecutive hi p.next ps

/-- The frames are disjoint pieces of the buffer, the MPDU of each lies in its packet, and what is
left of a data frame is what its length says less the headers taken off. -/
structure RxSound (ctx : RxContext) (run : List Pass) : Prop where
  consecutive : Consecutive ctx.bulkInOffset ctx.readPosition (run.map Pass.packet)
  mpdu : ∀ i ∈ run, rxwiSize + i.packet.rxWi.mpduByteCnt.toNat ≤ i.packet.packet.length
  strip : ∀ i ∈ run, ∀ d, i.outcome = .data (some d) →
    d.takenOff + d.dataSize.toNat = i.packet.rxWi.mpduByteCnt.toNat

/-- A data frame that none of the tests in front of the headers drops. -/
def reachesHeaders (ad : RxStation) (p : RxPacket) : Bool :=
  (p.rxFceInfo.getD 3 0).toNat / 64 = 0 ∧ 14 ≤ p.rxWi.mpduByteCnt.toNat ∧ ad.monitorOn = false ∧
    ad.ateOn = false ∧ rtmpCheckRxError ad p.pHeader p.rxWi (RxInfo.ofOctets p.rxInfo) = true ∧
    type p.pHeader = btypeData ∧ staAdmits ad p.pHeader p.rxWi (RxInfo.ofOctets p.rxInfo) = true

/-- A frame is long enough for its RXWI and its MPDU, and a data frame for the headers its bits
announce. -/
structure LongEnough (ad : RxStation) (p : RxPacket) : Prop where
  frame : rxwiSize + p.rxWi.mpduByteCnt.toNat ≤ p.thisFrameLen
  headers : reachesHeaders ad p = true →
    headersSize ad p.pHeader p.rxWi ≤ p.rxWi.mpduByteCnt.toNat

/-! ## 4. The loop -/

/-- **What reaches the headers is what they are taken off.** -/
theorem handleRxPacket_data_iff {ad : RxStation} {p : RxPacket} {d : RxData} :
    handleRxPacket ad p = .data (some d) ↔
      reachesHeaders ad p = true ∧ d = stripHeaders ad p.pHeader p.rxWi (.ofOctets p.rxInfo) := by
  rw [handleRxPacket, reachesHeaders, decide_eq_true_eq]
  split_ifs with hport hshort hmonitor hate herror htype hadmits hmgmt hcntl
  · exact ⟨(nomatch ·), fun h => absurd h.1.1 hport⟩
  · exact ⟨(nomatch ·), fun h => absurd h.1.2.1 (Nat.not_le_of_lt hshort)⟩
  · exact ⟨(nomatch ·), fun h => absurd hmonitor (by simp [h.1.2.2.1])⟩
  · exact ⟨(nomatch ·), fun h => absurd hate (by simp [h.1.2.2.2.1])⟩
  · have hpass : (p.rxFceInfo.getD 3 0).toNat / 64 = 0 := not_not.1 hport
    rw [Outcome.data.injEq, Option.some_inj]
    constructor
    · intro h
      exact ⟨⟨hpass, Nat.le_of_not_lt hshort, by simpa using hmonitor, by simpa using hate, herror,
        htype, hadmits⟩, h.symm⟩
    · exact fun h => h.2.symm
  · constructor
    · intro h
      exact nomatch Outcome.data.inj h
    · exact fun h => absurd h.1.2.2.2.2.2.2 hadmits
  · exact ⟨(nomatch ·), fun h => absurd h.1.2.2.2.2.2.1 htype⟩
  · exact ⟨(nomatch ·), fun h => absurd h.1.2.2.2.2.2.1 htype⟩
  · exact ⟨(nomatch ·), fun h => absurd h.1.2.2.2.2.2.1 htype⟩
  · exact ⟨(nomatch ·), fun h => absurd h.1.2.2.2.2.1 herror⟩

/-- What the loop can do. -/
theorem staRxDoneInterruptHandle_cases (env : Nat → RxEnv) (n : Nat) (ctx : RxContext) :
    staRxDoneInterruptHandle env n ctx = [] ∨
      ∃ (h : frameOk ctx = true) (behind : List UInt8),
        staRxDoneInterruptHandle env n ctx =
          ⟨packetAt ctx behind, (env n).ad, handleRxPacket (env n).ad (packetAt ctx behind)⟩ ::
            staRxDoneInterruptHandle env (n + 1) (ctx.advance h) := by
  rw [staRxDoneInterruptHandle]
  split_ifs with hstop hok
  · exact .inl rfl
  · cases (env n).packet with
    | none => exact .inl rfl
    | some behind => exact .inr ⟨hok, behind, rfl⟩
  · exact .inl rfl

/-- The run rule of the loop. -/
theorem staRxDoneInterruptHandle_induct {env : Nat → RxEnv}
    {P : RxContext → List Pass → Prop} (hnil : ∀ ctx, P ctx [])
    (hcons : ∀ n (ctx : RxContext) (h : frameOk ctx = true) behind run, P (ctx.advance h) run →
      P ctx (⟨packetAt ctx behind, (env n).ad,
        handleRxPacket (env n).ad (packetAt ctx behind)⟩ :: run)) :
    ∀ (m n : Nat) (ctx : RxContext), ctx.bulkInOffset - ctx.readPosition ≤ m →
      P ctx (staRxDoneInterruptHandle env n ctx) := by
  intro m
  induction m with
  | zero =>
    intro n ctx hm
    rcases staRxDoneInterruptHandle_cases env n ctx with heq | ⟨hok, behind, -⟩
    · rw [heq]
      exact hnil ctx
    · have hbounds := frameOk_bounds hok
      omega
  | succ m ih =>
    intro n ctx hm
    rcases staRxDoneInterruptHandle_cases env n ctx with heq | ⟨hok, behind, heq⟩
    · rw [heq]
      exact hnil ctx
    · rw [heq]
      refine hcons n ctx hok behind _ (ih (n + 1) _ ?_)
      have hbounds := frameOk_bounds hok
      simp only [RxContext.advance, RxPacket.next, packetAt, rxdmaFieldSize, rxinfoSize]
      omega

/-- **The frames cut out are consecutive and lie in the buffer**, whatever is in it. -/
theorem consecutive_staRxDoneInterruptHandle (env : Nat → RxEnv) (n : Nat) (ctx : RxContext) :
    Consecutive ctx.bulkInOffset ctx.readPosition
      ((staRxDoneInterruptHandle env n ctx).map Pass.packet) := by
  refine staRxDoneInterruptHandle_induct
    (P := fun ctx run => Consecutive ctx.bulkInOffset ctx.readPosition (run.map Pass.packet))
    ?_ ?_ _ n ctx (Nat.le_refl _)
  · intro ctx
    exact ctx.readPosition_le
  · intro n ctx hok behind run ih
    have hbounds := frameOk_bounds hok
    refine ⟨rfl, ?_, ?_, ih⟩
    · simp only [RxPacket.next, packetAt, rxdmaFieldSize, rxinfoSize]
      omega
    · simp only [RxPacket.next, packetAt, rxdmaFieldSize, rxinfoSize]
      omega

/-- Every pass is one of `handleRxPacket`, on a packet of the size it was allocated with. -/
theorem pass_staRxDoneInterruptHandle (env : Nat → RxEnv) (n : Nat) (ctx : RxContext) :
    ∀ i ∈ staRxDoneInterruptHandle env n ctx,
      i.outcome = handleRxPacket i.ad i.packet ∧ i.packet.packet.length = i.packet.thisFrameLen := by
  refine staRxDoneInterruptHandle_induct
    (P := fun _ run => ∀ i ∈ run, i.outcome = handleRxPacket i.ad i.packet ∧
      i.packet.packet.length = i.packet.thisFrameLen) ?_ ?_ _ n ctx (Nat.le_refl _)
  · intro ctx i hi
    exact absurd hi List.not_mem_nil
  · intro n ctx hok behind run ih i hi
    rcases List.mem_cons.1 hi with hi | hi
    · rw [hi]
      exact ⟨rfl, Mem.length_read _ _ _⟩
    · exact ih i hi

/-- **The receive loop is sound exactly if every frame it cuts out is long enough.** -/
theorem staRxDoneInterruptHandle_sound_iff (env : Nat → RxEnv) (ctx : RxContext) :
    RxSound ctx (staRxDoneInterruptHandle env 0 ctx) ↔
      ∀ i ∈ staRxDoneInterruptHandle env 0 ctx, LongEnough i.ad i.packet := by
  have hpass := pass_staRxDoneInterruptHandle env 0 ctx
  constructor
  · intro h i hi
    obtain ⟨houtcome, hlength⟩ := hpass i hi
    constructor
    · rw [← hlength]
      exact h.mpdu i hi
    · intro hreaches
      have hdata : i.outcome = .data (some (stripHeaders i.ad i.packet.pHeader i.packet.rxWi
          (.ofOctets i.packet.rxInfo))) := by
        rw [houtcome]
        exact handleRxPacket_data_iff.2 ⟨hreaches, rfl⟩
      have hstrip := h.strip i hi _ hdata
      rw [takenOff_stripHeaders] at hstrip
      exact dataSize_stripHeaders_iff.1 hstrip
  · intro h
    refine ⟨consecutive_staRxDoneInterruptHandle env 0 ctx, ?_, ?_⟩
    · intro i hi
      rw [(hpass i hi).2]
      exact (h i hi).frame
    · intro i hi d hd
      rw [(hpass i hi).1] at hd
      obtain ⟨hreaches, rfl⟩ := handleRxPacket_data_iff.1 hd
      rw [takenOff_stripHeaders]
      exact dataSize_stripHeaders_iff.2 ((h i hi).headers hreaches)

namespace Example

/-- A buffer with one frame of 28 octets whose RXWI says that the MPDU has 28. -/
def longMpdu : RxContext where
  transferBuffer := [28, 0, 0, 0] ++ List.replicate 4 0 ++ [0, 0, 28, 0] ++ List.replicate 24 0
  bulkInOffset := 36
  readPosition := 0
  readPosition_le := by decide

/-- A station that is up. -/
def station : RxStation where
  bssInfra := true
  mlmeAuxBssid := List.replicate 6 1
  bssid := List.replicate 6 1
  currentAddress := List.replicate 6 2
  macTableLookup := fun _ => true
  aggregationInUsed := false
  monitorOn := false
  ateOn := false
  sharedKeyAlg := fun _ => .none
  fragSequence := 0

def upAndRunning (_ : Nat) : RxEnv where
  stop := false
  packet := some []
  ad := station

/-- The packet has room for 4 octets behind the RXWI. -/
theorem not_sound_longMpdu :
    ¬ RxSound longMpdu (staRxDoneInterruptHandle upAndRunning 0 longMpdu) := by
  intro h
  have hok : frameOk longMpdu = true := by decide
  have hrun : ∃ rest, staRxDoneInterruptHandle upAndRunning 0 longMpdu =
      ⟨packetAt longMpdu [], station, handleRxPacket station (packetAt longMpdu [])⟩ :: rest := by
    rw [staRxDoneInterruptHandle, if_neg (by decide), dif_pos hok]
    exact ⟨_, rfl⟩
  obtain ⟨rest, hrun⟩ := hrun
  rw [hrun] at h
  exact absurd (h.mpdu _ List.mem_cons_self) (by decide)

end Example

end Mt7601.Data
