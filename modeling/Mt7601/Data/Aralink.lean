/-
# Two MSDUs in one frame: Ralink aggregation

`STA_ARalink_Frame_Tx` puts two packets behind one 802.11 header: two octets with the length of the
second, an LLC/SNAP header in front of an EtherType and the payload of the first, and the second as
an Ethernet frame. `CmmRxRalinkFrameIndicate` takes them apart by the length it finds.

It looks at the length before it takes off the two octets and the LLC/SNAP header, and never at the
14 octets of the second header (`ralinkPackets_tiles`). A first packet with a length field comes out with
another one (`AralinkPair.announced_iff`).
-/
import Mt7601.Data.TxBlk
import Mt7601.Data.RxAnnounce

namespace Mt7601.Data

/-! ## 1. `CmmRxRalinkFrameIndicate` -/

/-- What the two macros for the 802.3 header look at: the mode, and bits of `RX_BLK.Flags`. -/
structure RxAddrFlags where
  /-- the macro of an access point -/
  opModeAp : Bool
  /-- `fRX_WDS` or `fRX_MESH` -/
  wds : Bool := false
  apCli : Bool := false
  infra : Bool := false
  dls : Bool := false
deriving DecidableEq

/-- `_pDA - pHeader` and `_pSA - pHeader` -/
def RxAddrFlags.addrs (flags : RxAddrFlags) : Nat × Nat :=
  if flags.wds then (16, 24)
  else if flags.opModeAp then if flags.apCli then (4, 16) else (16, 10)
  else if flags.infra then (4, if flags.dls then 10 else 16)
  else (4, 10)

/-- A packet that is announced: its 802.3 header, and where its payload lies behind `pHeader`. -/
structure Announced where
  header8023 : List UInt8
  pPayload : Nat
  payloadSize : UInt16
  payload : List UInt8
deriving DecidableEq

/-- The Ethernet frame. -/
def Announced.frame (a : Announced) : List UInt8 := a.header8023 ++ a.payload

/-- `Msdu2Size` -/
def msdu2SizeOf (pRxBlk : RxBlk) : UInt16 := msdu2Size pRxBlk.pHeader pRxBlk.pData

/-- The packets made of a frame whose length has passed. -/
def ralinkPackets (flags : RxAddrFlags) (pRxBlk : RxBlk) : Announced × Announced :=
  let msdu2Size := msdu2SizeOf pRxBlk
  -- skip two byte MSDU2 len
  let pData := pRxBlk.pData + 2
  let dataSize := pRxBlk.dataSize - 2
  let to8023 := convertTo8023 pRxBlk.pHeader flags.addrs.1 flags.addrs.2 pData dataSize
  let payload1Size := to8023.dataSize - msdu2Size
  let payload2Size := msdu2Size - UInt16.ofNat length8023
  let pData2 := to8023.pData + payload1Size.toNat + length8023
  ({ header8023 := to8023.header8023
     pPayload := to8023.pData
     payloadSize := payload1Size
     payload := Mem.read pRxBlk.pHeader to8023.pData payload1Size.toNat },
   { header8023 := Mem.read pRxBlk.pHeader (pData2 - length8023) length8023
     pPayload := pData2
     payloadSize := payload2Size
     payload := Mem.read pRxBlk.pHeader pData2 payload2Size.toNat })

/-- `CmmRxRalinkFrameIndicate` in both modes: the packets, or none if the frame is released.
`alloc` is the outcome of `duplicate_pkt`. -/
def cmmRxRalinkPackets (flags : RxAddrFlags) (alloc : Bool) (pRxBlk : RxBlk) :
    Option (Announced × Announced) :=
  if msdu2SizeOf pRxBlk ≤ 1536 ∧ msdu2SizeOf pRxBlk < pRxBlk.dataSize then
    if alloc then some (ralinkPackets flags pRxBlk) else none
  else none

/-! ## 2. What is announced lies in the frame -/

/-- The octets of the LLC/SNAP header that is taken off behind the length. -/
def llcSnapSize (pRxBlk : RxBlk) : Nat :=
  if removesLlcSnap pRxBlk.pHeader (pRxBlk.pData + 2) then length8021H else 0

/-- **The announced packets are the received data, one behind the other**: the length and the
LLC/SNAP header, the first payload, the second header, the second payload. -/
structure Tiles (pRxBlk : RxBlk) (first second : Announced) : Prop where
  firstStart : first.pPayload = pRxBlk.pData + 2 + llcSnapSize pRxBlk
  secondStart : second.pPayload = first.pPayload + first.payloadSize.toNat + length8023
  secondEnd : second.pPayload + second.payloadSize.toNat = pRxBlk.pData + pRxBlk.dataSize.toNat

theorem llcLen_length (n : UInt16) : (llcLen n).length = 2 := rfl

section

variable (flags : RxAddrFlags) (pRxBlk : RxBlk)

/-- Where the data pointer and the size are behind the LLC/SNAP header. -/
theorem to8023_pData (pDA pSA : Nat) (dataSize : UInt16) :
    let to8023 := convertTo8023 pRxBlk.pHeader pDA pSA (pRxBlk.pData + 2) dataSize
    to8023.pData = pRxBlk.pData + 2 + llcSnapSize pRxBlk ∧
      to8023.dataSize = dataSize - UInt16.ofNat (llcSnapSize pRxBlk) := by
  unfold llcSnapSize
  cases h : removesLlcSnap pRxBlk.pHeader (pRxBlk.pData + 2) with
  | true =>
    rw [convertTo8023_of_removes h, if_pos rfl]
    exact ⟨rfl, rfl⟩
  | false =>
    rw [convertTo8023_of_not_removes h, if_neg Bool.false_ne_true]
    exact ⟨rfl, (UInt16.sub_zero _).symm⟩

theorem llcSnapSize_le : llcSnapSize pRxBlk ≤ 8 := by
  unfold llcSnapSize
  split
  · exact Nat.le_refl 8
  · exact Nat.zero_le 8

/-- The sizes, which may have wrapped. -/
theorem ralinkPackets_sizes :
    (ralinkPackets flags pRxBlk).1.pPayload = pRxBlk.pData + 2 + llcSnapSize pRxBlk ∧
      (ralinkPackets flags pRxBlk).2.pPayload =
        (ralinkPackets flags pRxBlk).1.pPayload +
          (ralinkPackets flags pRxBlk).1.payloadSize.toNat + length8023 ∧
      (ralinkPackets flags pRxBlk).1.payloadSize =
        pRxBlk.dataSize - 2 - UInt16.ofNat (llcSnapSize pRxBlk) - msdu2SizeOf pRxBlk ∧
      (ralinkPackets flags pRxBlk).2.payloadSize =
        msdu2SizeOf pRxBlk - UInt16.ofNat length8023 := by
  obtain ⟨hdata, hsize⟩ := to8023_pData pRxBlk flags.addrs.1 flags.addrs.2
    (pRxBlk.dataSize - 2)
  refine ⟨hdata, rfl, ?_, rfl⟩
  rw [← hsize]
  rfl

/-- A difference wraps around at most once. -/
theorem toNat_sub_wraps (x y : UInt16) :
    (x - y).toNat + y.toNat = x.toNat ∨ (x - y).toNat + y.toNat = x.toNat + 2 ^ 16 := by
  have hx := x.toNat_lt
  have hy := y.toNat_lt
  rw [UInt16.toNat_sub]
  omega

theorem toNat_sub_eq {x y : UInt16} {k : Nat} (h : x.toNat = y.toNat + k) : (x - y).toNat = k := by
  have hlt := (x - y).toNat_lt
  have hwraps := toNat_sub_wraps x y
  omega

/-- **The packets lie in the received data exactly if the length has room for a header and leaves
room for what stands in front of it.** -/
theorem ralinkPackets_tiles (hlt : msdu2SizeOf pRxBlk < pRxBlk.dataSize) :
    Tiles pRxBlk (ralinkPackets flags pRxBlk).1 (ralinkPackets flags pRxBlk).2 ↔
      14 ≤ (msdu2SizeOf pRxBlk).toNat ∧
        2 + llcSnapSize pRxBlk + (msdu2SizeOf pRxBlk).toNat ≤ pRxBlk.dataSize.toNat := by
  obtain ⟨hfirst, hsecond, hsize1, hsize2⟩ := ralinkPackets_sizes flags pRxBlk
  have hllc := llcSnapSize_le pRxBlk
  have hn := pRxBlk.dataSize.toNat_lt
  have h14 : (UInt16.ofNat length8023).toNat = 14 := rfl
  have h2 : (2 : UInt16).toNat = 2 := rfl
  have hllc' : (UInt16.ofNat (llcSnapSize pRxBlk)).toNat = llcSnapSize pRxBlk := by
    rw [UInt16.toNat_ofNat']
    omega
  have hlen : length8023 = 14 := rfl
  rw [UInt16.lt_iff_toNat_lt] at hlt
  have hwrap := toNat_sub_wraps pRxBlk.dataSize 2
  have hwrap' := toNat_sub_wraps (pRxBlk.dataSize - 2) (UInt16.ofNat (llcSnapSize pRxBlk))
  have hwrap1 := toNat_sub_wraps (pRxBlk.dataSize - 2 - UInt16.ofNat (llcSnapSize pRxBlk))
    (msdu2SizeOf pRxBlk)
  have hwrap2 := toNat_sub_wraps (msdu2SizeOf pRxBlk) (UInt16.ofNat length8023)
  rw [← hsize1] at hwrap1
  rw [← hsize2, h14] at hwrap2
  rw [h2] at hwrap
  rw [hllc'] at hwrap'
  have hlt1 := (ralinkPackets flags pRxBlk).1.payloadSize.toNat_lt
  have hlt2 := (ralinkPackets flags pRxBlk).2.payloadSize.toNat_lt
  constructor
  · rintro ⟨-, -, hend⟩
    rw [hsecond, hfirst] at hend
    omega
  · rintro ⟨hheader, hroom⟩
    refine ⟨hfirst, hsecond, ?_⟩
    rw [hsecond, hfirst]
    omega

end

/-! ## 3. `STA_ARalink_Frame_Tx` -/

/-- `nextBufLen`: the length of a packet without its VLAN tag. -/
def nextBufLenOf (p : TxPacket) : Nat := p.srcBufLen - if p.vlan then 4 else 0

/-- The type field in front of the payload. -/
def TxPacket.typeField (p : TxPacket) : List UInt8 :=
  Mem.read p.pSrcBufHeader (p.pSrcBufData - 2) 2

/-- What is left of a packet behind its headers. -/
def TxPacket.payload (p : TxPacket) : List UInt8 :=
  Mem.read p.pSrcBufHeader p.pSrcBufData (p.srcBufLen - p.pSrcBufData)

/-- The first packet: the length of the second in front, and an LLC/SNAP header. -/
def aralinkFirst (p next : TxPacket) : List UInt8 :=
  [UInt8.ofNat (nextBufLenOf next), UInt8.ofNat (nextBufLenOf next / 256)] ++
    (match extraLlcSnapEncap p.typeField with
      | some snap => snap ++ p.typeField
      | none => []) ++
    p.payload

/-- The second packet: an Ethernet frame. -/
def aralinkNext (p : TxPacket) : List UInt8 :=
  Mem.read p.pSrcBufHeader 0 12 ++ p.typeField ++ p.payload

/-- The frame that is written; the padding in front of the body is none of it. -/
structure AralinkFrame where
  wifiHdr : WifiHdr
  qosControl : List UInt8
  body : List UInt8

/-- `STA_Build_ARalink_Frame_Header` and `STA_ARalink_Frame_Tx`, for the two packets of the list. -/
def staAralinkFrameTx (ad : TxAdapter) (entry : TxEntry) (seqs : TxSeqs)
    (first next : QueuedPacket) : AralinkFrame :=
  let pTxBlk := rtmpFillTxBlkInfo ad entry .ralink first
  let wifiHdr := (staBuildCommon80211Header ad seqs pTxBlk (staFindCipherAlgorithm ad pTxBlk)).1
  { wifiHdr := { wifiHdr with order := true }
    qosControl := if pTxBlk.wmm then [UInt8.ofNat pTxBlk.userPriority.val, 0] else []
    body := aralinkFirst first.toTxPacket next.toTxPacket ++ aralinkNext next.toTxPacket }

/-- The frame as it is received, with its padding and what stands behind it in memory. -/
def AralinkFrame.received (f : AralinkFrame) (pad behind : List UInt8) : RxBlk where
  pHeader := f.wifiHdr.octets ++ (f.qosControl ++ pad ++ (f.body ++ behind))
  pData := length80211 + (f.qosControl ++ pad).length
  dataSize := UInt16.ofNat f.body.length

/-- Two MSDUs that a station sends in one frame, to its access point or to a station of its ad hoc
network; the byte count of a frame has 12 bits. -/
structure AralinkPair where
  ad : TxAdapter
  entry : TxEntry
  seqs : TxSeqs
  first : Msdu
  firstTag : Option (Octets 4)
  firstFlags : QueuedPacket
  next : Msdu
  nextTag : Option (Octets 4)
  nextFlags : QueuedPacket
  joined : ad.bssInfra = true ∨ ad.adhocOn = true
  fits : 24 + first.payload.length + next.payload.length < 4096

/-- The frame of the pair. -/
def AralinkPair.frame (p : AralinkPair) : AralinkFrame :=
  staAralinkFrameTx p.ad p.entry p.seqs { p.firstFlags with toTxPacket := p.first.packet p.firstTag }
    { p.nextFlags with toTxPacket := p.next.packet p.nextTag }

/-- The mode of the receiver. -/
def AralinkPair.peerFlags (p : AralinkPair) : RxAddrFlags := { opModeAp := p.ad.bssInfra }

instance (m : Msdu) : Decidable m.IsEtherType := inferInstanceAs (Decidable (_ < _))

/-- The number in the type field. -/
def Msdu.typeValue (m : Msdu) : Nat :=
  (m.type.toList.getD 0 0).toNat * 256 + (m.type.toList.getD 1 0).toNat

/-- What stands in front of the payload of the first MSDU. -/
def Msdu.llcSnap (m : Msdu) : List UInt8 :=
  match extraLlcSnapEncap m.type.toList with
  | some snap => snap ++ m.type.toList
  | none => []

theorem length_frame (m : Msdu) : m.frame.length = 14 + m.payload.length := by
  have hda : m.da.toList.length = 6 := m.da.toList_length
  have hsa : m.sa.toList.length = 6 := m.sa.toList_length
  have htype : m.type.toList.length = 2 := m.type.toList_length
  rw [Msdu.frame, List.length_append, List.length_append, List.length_append, hda, hsa, htype]
  omega

section

variable (p : AralinkPair)

/-- The body, by the MSDUs. -/
theorem AralinkPair.body_eq :
    p.frame.body = [UInt8.ofNat p.next.frame.length, UInt8.ofNat (p.next.frame.length / 256)] ++
      (p.first.llcSnap ++ (p.first.payload ++ p.next.frame)) := by
  obtain ⟨-, htype, hpayload, hlen⟩ := packet_fields p.first p.firstTag
  obtain ⟨haddr', htype', hpayload', hlen'⟩ := packet_fields p.next p.nextTag
  have hnext : nextBufLenOf (p.next.packet p.nextTag) = p.next.frame.length := by
    rw [length_frame, nextBufLenOf, Msdu.packet]
    dsimp only
    have h14 : length8023 = 14 := rfl
    split_ifs <;> omega
  rw [frame, staAralinkFrameTx]
  dsimp only
  rw [aralinkFirst, aralinkNext, hnext, TxPacket.typeField, TxPacket.payload, hlen, htype, hpayload,
    TxPacket.typeField, TxPacket.payload, hlen', haddr', htype', hpayload']
  simp only [Msdu.llcSnap, Msdu.frame, List.append_assoc]

theorem AralinkPair.length_body : p.frame.body.length =
    2 + p.first.llcSnap.length + p.first.payload.length + p.next.frame.length := by
  rw [p.body_eq]
  simp only [List.length_append, List.length_cons, List.length_nil]
  omega

theorem llcSnap_of_etherType {m : Msdu} (h : m.IsEtherType) :
    m.llcSnap = snapOf m.type.toList ++ m.type.toList := by
  rw [Msdu.IsEtherType] at h
  rw [Msdu.llcSnap, extraLlcSnapEncap, if_pos h, snapOf]
  split_ifs <;> rfl

theorem llcSnap_of_length {m : Msdu} (h : ¬ m.IsEtherType) : m.llcSnap = [] := by
  rw [Msdu.IsEtherType] at h
  rw [Msdu.llcSnap, extraLlcSnapEncap, if_neg h]

theorem read_addr1 (h : WifiHdr) (rest : List UInt8) :
    Mem.read (h.octets ++ rest) 4 macAddrLen = h.addr1.toList := by
  refine Mem.read_middle [h.fc0, h.fc1, UInt8.ofNat h.duration.toNat,
    UInt8.ofNat (h.duration.toNat / 256)] (h.addr2.toList ++ (h.addr3.toList ++
    ([UInt8.ofNat (h.frag.val + h.sequence.val % 16 * 16), UInt8.ofNat (h.sequence.val / 16)] ++
      rest))) ?_ rfl h.addr1.toList_length.symm
  simp only [WifiHdr.octets, List.append_assoc]

theorem read_addr2 (h : WifiHdr) (rest : List UInt8) :
    Mem.read (h.octets ++ rest) 10 macAddrLen = h.addr2.toList := by
  refine Mem.read_middle ([h.fc0, h.fc1, UInt8.ofNat h.duration.toNat,
    UInt8.ofNat (h.duration.toNat / 256)] ++ h.addr1.toList) (h.addr3.toList ++
    ([UInt8.ofNat (h.frag.val + h.sequence.val % 16 * 16), UInt8.ofNat (h.sequence.val / 16)] ++
      rest)) ?_ ?_ h.addr2.toList_length.symm
  · simp only [WifiHdr.octets, List.append_assoc]
  · rw [List.length_append, h.addr1.toList_length]
    rfl

theorem read_addr3 (h : WifiHdr) (rest : List UInt8) :
    Mem.read (h.octets ++ rest) 16 macAddrLen = h.addr3.toList := by
  refine Mem.read_middle ([h.fc0, h.fc1, UInt8.ofNat h.duration.toNat,
    UInt8.ofNat (h.duration.toNat / 256)] ++ h.addr1.toList ++ h.addr2.toList)
    ([UInt8.ofNat (h.frag.val + h.sequence.val % 16 * 16), UInt8.ofNat (h.sequence.val / 16)] ++
      rest) ?_ ?_ h.addr3.toList_length.symm
  · simp only [WifiHdr.octets, List.append_assoc]
  · rw [List.length_append, List.length_append, h.addr1.toList_length, h.addr2.toList_length]
    rfl

/-- The addresses of the header, where the receiver looks for them. -/
theorem AralinkPair.addrs_eq (rest : List UInt8) :
    Mem.read (p.frame.wifiHdr.octets ++ rest) p.peerFlags.addrs.1 macAddrLen =
        p.first.da.toList ∧
      Mem.read (p.frame.wifiHdr.octets ++ rest) p.peerFlags.addrs.2 macAddrLen =
        p.ad.currentAddress.toList := by
  have hda : ({ p.firstFlags with toTxPacket := p.first.packet p.firstTag } : QueuedPacket).da =
      p.first.da := by
    refine Octets.toList_injective ?_
    exact Mem.read_middle [] _ rfl rfl p.first.da.toList_length.symm
  cases hinfra : p.ad.bssInfra with
  | true =>
    have haddrs : p.peerFlags.addrs = (16, 10) := by
      rw [peerFlags, hinfra]
      rfl
    have haddr3 : p.frame.wifiHdr.addr3 = p.first.da := by
      rw [frame, staAralinkFrameTx, staBuildCommon80211Header]
      dsimp only
      rw [if_pos hinfra]
      exact hda
    have haddr2 : p.frame.wifiHdr.addr2 = p.ad.currentAddress := by
      rw [frame, staAralinkFrameTx, staBuildCommon80211Header]
      dsimp only
      rw [if_pos hinfra]
    rw [haddrs, read_addr3, read_addr2, haddr3, haddr2]
    exact ⟨rfl, rfl⟩
  | false =>
    have haddrs : p.peerFlags.addrs = (4, 10) := by
      rw [peerFlags, hinfra]
      rfl
    have hadhoc := p.joined.resolve_left fun h => Bool.false_ne_true (hinfra.symm.trans h)
    have hnot : ¬ p.ad.bssInfra = true := fun h => Bool.false_ne_true (hinfra.symm.trans h)
    have haddr1 : p.frame.wifiHdr.addr1 = p.first.da := by
      rw [frame, staAralinkFrameTx, staBuildCommon80211Header]
      dsimp only
      rw [if_neg hnot, if_pos hadhoc]
      exact hda
    have haddr2 : p.frame.wifiHdr.addr2 = p.ad.currentAddress := by
      rw [frame, staAralinkFrameTx, staBuildCommon80211Header]
      dsimp only
      rw [if_neg hnot, if_pos hadhoc]
    rw [haddrs, read_addr1, read_addr2, haddr1, haddr2]
    exact ⟨rfl, rfl⟩

/-- The memory of the received frame, around what stands behind the length. -/
theorem AralinkPair.memory_eq (pad behind : List UInt8) :
    ∃ front, front.length = (p.frame.received pad behind).pData + 2 ∧
      (p.frame.received pad behind).pHeader =
        front ++ (p.first.llcSnap ++ (p.first.payload ++ (p.next.frame ++ behind))) := by
  refine ⟨p.frame.wifiHdr.octets ++ (p.frame.qosControl ++ pad) ++
    [UInt8.ofNat p.next.frame.length, UInt8.ofNat (p.next.frame.length / 256)], ?_, ?_⟩
  · rw [AralinkFrame.received, List.length_append, List.length_append, WifiHdr.length_octets]
    rfl
  · rw [AralinkFrame.received, p.body_eq]
    simp only [List.append_assoc]

theorem AralinkPair.msdu2Size (pad behind : List UInt8) :
    (msdu2SizeOf (p.frame.received pad behind)).toNat = p.next.frame.length := by
  have hfits := p.fits
  have hlen := length_frame p.next
  have hmem : (p.frame.received pad behind).pHeader = (p.frame.wifiHdr.octets ++
      (p.frame.qosControl ++ pad)) ++ ([UInt8.ofNat p.next.frame.length,
        UInt8.ofNat (p.next.frame.length / 256)] ++ (p.first.llcSnap ++
          (p.first.payload ++ (p.next.frame ++ behind)))) := by
    rw [AralinkFrame.received, p.body_eq]
    simp only [List.append_assoc]
  have hread : Mem.read (p.frame.received pad behind).pHeader
      (p.frame.received pad behind).pData 2 = [UInt8.ofNat p.next.frame.length,
        UInt8.ofNat (p.next.frame.length / 256)] := by
    refine Mem.read_middle _ _ hmem ?_ rfl
    rw [List.length_append, WifiHdr.length_octets]
    rfl
  have h0 := Mem.getD_read (p.frame.received pad behind).pHeader
    (p.frame.received pad behind).pData (show 0 < 2 by decide)
  have h1 := Mem.getD_read (p.frame.received pad behind).pHeader
    (p.frame.received pad behind).pData (show 1 < 2 by decide)
  rw [hread] at h0 h1
  rw [msdu2SizeOf, Data.msdu2Size, show (p.frame.received pad behind).pHeader.getD
    (p.frame.received pad behind).pData 0 = _ from h0.symm, ← h1]
  have h256 : (256 : UInt16).toNat = 256 := rfl
  simp only [List.getD_cons_zero, List.getD_cons_succ, UInt16.toNat_add, UInt16.toNat_mul,
    UInt8.toNat_toUInt16, UInt8.toNat_ofNat', h256]
  omega

theorem AralinkPair.dataSize (pad behind : List UInt8) :
    (p.frame.received pad behind).dataSize.toNat =
      2 + p.first.llcSnap.length + p.first.payload.length + p.next.frame.length := by
  have hfits := p.fits
  have hlen := length_frame p.next
  have hllc : p.first.llcSnap.length ≤ 8 := by
    by_cases h : p.first.IsEtherType
    · rw [llcSnap_of_etherType h, List.length_append, length_snapOf, p.first.type.toList_length]
    · rw [llcSnap_of_length h]
      exact Nat.zero_le 8
  rw [AralinkFrame.received]
  dsimp only
  rw [UInt16.toNat_ofNat', p.length_body]
  omega

/-- What the receiver announces. -/
def AralinkPair.announced (pad behind : List UInt8) : Option (List UInt8 × List UInt8) :=
  (cmmRxRalinkPackets p.peerFlags true (p.frame.received pad behind)).map
    fun a => (a.1.frame, a.2.frame)

/-- The payload of the first MSDU, which has a length field, begins like an LLC/SNAP header. -/
def AralinkPair.startsLlcSnap : Bool := removesLlcSnap (p.first.payload ++ p.next.frame) 0

/-- **The pairs that come out as they went in**: the second MSDU is no longer than 1536 octets, the
first one is of the station itself and has an EtherType; or a length field, that happens to count the
second MSDU as well. -/
structure AralinkPair.Fine : Prop where
  short : p.next.payload.length ≤ 1522
  own : p.first.sa = p.ad.currentAddress
  type : p.first.IsEtherType ∨ p.startsLlcSnap = false ∧
    p.first.typeValue = p.first.payload.length + p.next.frame.length

theorem read_inside {mem l rest : List UInt8} (front : List UInt8) {i n : Nat}
    (hmem : mem = front ++ (l ++ rest)) (hle : i + n ≤ l.length) :
    Mem.read mem (front.length + i) n = Mem.read l i n := by
  rw [Mem.read_eq_take hle, Mem.read_eq_take (by simp [hmem]; omega), hmem,
    List.drop_append, List.drop_eq_nil_of_le (by omega), Nat.add_sub_cancel_left, List.nil_append,
    List.drop_append_of_le_length (by omega), List.take_append_of_le_length (by simp; omega)]

/-- Two octets of a length are a type field exactly if they say the number. -/
theorem llcLen_eq_type (m : Msdu) (n : UInt16) :
    llcLen n = m.type.toList ↔ m.typeValue = n.toNat := by
  have hlt := n.toNat_lt
  have h256 : (256 : UInt16).toNat = 256 := rfl
  obtain ⟨a, b, hab⟩ : ∃ a b, m.type.toList = [a, b] :=
    List.length_eq_two.mp m.type.toList_length
  have ha := a.toNat_lt
  have hb := b.toNat_lt
  rw [Msdu.typeValue, hab, llcLen]
  simp only [List.cons.injEq, and_true, List.getD_cons_zero, List.getD_cons_succ]
  rw [← UInt8.toNat_inj, ← UInt8.toNat_inj, UInt16.toNat_toUInt8, UInt16.toNat_toUInt8,
    UInt16.toNat_div, UInt16.toNat_mod, h256]
  omega

section

variable (pad behind : List UInt8)

/-- The header that the encoder put in is the one taken off. -/
theorem AralinkPair.removes_etherType (h : p.first.IsEtherType) :
    removesLlcSnap (p.frame.received pad behind).pHeader
      ((p.frame.received pad behind).pData + 2) = true := by
  obtain ⟨front, hfront, hmem⟩ := p.memory_eq pad behind
  have hsnap := length_snapOf p.first.type.toList
  have htype : p.first.type.toList.length = 2 := p.first.type.toList_length
  rw [llcSnap_of_etherType h] at hmem
  refine @removesLlcSnap_of_snapOf _ p.first.type.toList _ ?_ ?_
  · exact Mem.read_middle front (p.first.type.toList ++
      (p.first.payload ++ (p.next.frame ++ behind))) (by rw [hmem]; simp) hfront.symm hsnap.symm
  · refine Mem.read_middle (front ++ snapOf p.first.type.toList)
      (p.first.payload ++ (p.next.frame ++ behind)) (by rw [hmem]; simp) ?_ htype.symm
    rw [List.length_append, hfront, hsnap]

/-- Behind a length field the payload is looked at. -/
theorem AralinkPair.removes_length (h : ¬ p.first.IsEtherType) :
    removesLlcSnap (p.frame.received pad behind).pHeader
      ((p.frame.received pad behind).pData + 2) = p.startsLlcSnap := by
  obtain ⟨front, hfront, hmem⟩ := p.memory_eq pad behind
  have hlen : 14 ≤ (p.first.payload ++ p.next.frame).length := by
    rw [List.length_append, length_frame]
    omega
  have hmem' : (p.frame.received pad behind).pHeader =
      front ++ ((p.first.payload ++ p.next.frame) ++ behind) := by
    rw [hmem, llcSnap_of_length h, List.nil_append, List.append_assoc]
  have hllc : Mem.read (p.frame.received pad behind).pHeader (front.length + 0) 6 =
      Mem.read (p.first.payload ++ p.next.frame) 0 6 := read_inside front hmem' (by omega)
  have hproto : Mem.read (p.frame.received pad behind).pHeader (front.length + 6) 2 =
      Mem.read (p.first.payload ++ p.next.frame) 6 2 := read_inside front hmem' (by omega)
  rw [Nat.add_zero] at hllc
  rw [startsLlcSnap, removesLlcSnap, removesLlcSnap, ← hfront, hllc, hproto]

variable {pad behind}

/-- **If as much is taken off as was put in, the packets are where they were put.** -/
theorem AralinkPair.packets_eq (hllc : llcSnapSize (p.frame.received pad behind) =
      p.first.llcSnap.length) :
    (ralinkPackets p.peerFlags (p.frame.received pad behind)).1.payload = p.first.payload ∧
      (ralinkPackets p.peerFlags (p.frame.received pad behind)).2.frame = p.next.frame := by
  obtain ⟨front, hfront, hmem⟩ := p.memory_eq pad behind
  obtain ⟨hstart, hstart2, hsize1, hsize2⟩ := ralinkPackets_sizes
    p.peerFlags (p.frame.received pad behind)
  have hm := p.msdu2Size pad behind
  have hn := p.dataSize pad behind
  have hnlt := (p.frame.received pad behind).dataSize.toNat_lt
  have hframe := length_frame p.next
  have h14 : (UInt16.ofNat length8023).toNat = 14 := rfl
  have h2 : (2 : UInt16).toNat = 2 := rfl
  have hllc' : (UInt16.ofNat (llcSnapSize (p.frame.received pad behind))).toNat =
      p.first.llcSnap.length := by
    rw [UInt16.toNat_ofNat', hllc]
    omega
  have hpayload1 : (ralinkPackets p.peerFlags
      (p.frame.received pad behind)).1.payloadSize.toNat = p.first.payload.length := by
    rw [hsize1]
    refine toNat_sub_eq (toNat_sub_eq (toNat_sub_eq ?_))
    rw [hn, h2, hllc', hm]
    omega
  have hpayload2 : (ralinkPackets p.peerFlags
      (p.frame.received pad behind)).2.payloadSize.toNat = p.next.payload.length := by
    rw [hsize2, UInt16.toNat_sub, h14, hm, hframe]
    have := p.fits
    omega
  rw [hllc, ← hfront] at hstart
  constructor
  · change Mem.read _ _ _ = _
    refine Mem.read_middle (front ++ p.first.llcSnap) (p.next.frame ++ behind)
      (by rw [hmem]; simp) ?_ hpayload1
    rw [List.length_append]
    exact hstart
  · have hread : Mem.read (p.frame.received pad behind).pHeader
        (front ++ p.first.llcSnap ++ p.first.payload).length (14 + p.next.payload.length) =
        p.next.frame := by
      exact Mem.read_middle (front ++ p.first.llcSnap ++ p.first.payload) behind
        (by rw [hmem]; simp) rfl hframe.symm
    rw [Mem.read_add] at hread
    have hoff : (ralinkPackets p.peerFlags (p.frame.received pad behind)).2.pPayload =
        (front ++ p.first.llcSnap ++ p.first.payload).length + 14 := by
      rw [hstart2, hstart, hpayload1, List.length_append, List.length_append]
      rfl
    have hheader : (ralinkPackets p.peerFlags (p.frame.received pad behind)).2.header8023 =
        Mem.read (p.frame.received pad behind).pHeader
          ((ralinkPackets p.peerFlags (p.frame.received pad behind)).2.pPayload - 14) 14 :=
      rfl
    have hpayload : (ralinkPackets p.peerFlags (p.frame.received pad behind)).2.payload =
        Mem.read (p.frame.received pad behind).pHeader
          (ralinkPackets p.peerFlags (p.frame.received pad behind)).2.pPayload
          (ralinkPackets p.peerFlags (p.frame.received pad behind)).2.payloadSize.toNat :=
      rfl
    rw [Announced.frame, hheader, hpayload, hpayload2, hoff, Nat.add_sub_cancel]
    exact hread

/-! ## 4. The header of the first packet -/

/-- The addresses that are put in front of the first payload. -/
theorem AralinkPair.make8023Header_eq (type : List UInt8) :
    make8023Header (p.frame.received pad behind).pHeader p.peerFlags.addrs.1 p.peerFlags.addrs.2 type =
      p.first.da.toList ++ p.ad.currentAddress.toList ++ type := by
  obtain ⟨hda, hsa⟩ := p.addrs_eq (p.frame.qosControl ++ pad ++ (p.frame.body ++ behind))
  rw [make8023Header, AralinkFrame.received, hda, hsa]

/-- An EtherType is put back. -/
theorem AralinkPair.header_etherType (h : p.first.IsEtherType) :
    (ralinkPackets p.peerFlags (p.frame.received pad behind)).1.header8023 =
      p.first.da.toList ++ p.ad.currentAddress.toList ++ p.first.type.toList := by
  obtain ⟨front, hfront, hmem⟩ := p.memory_eq pad behind
  have hsnap := length_snapOf p.first.type.toList
  have htype : p.first.type.toList.length = 2 := p.first.type.toList_length
  have hread : Mem.read (p.frame.received pad behind).pHeader
      ((p.frame.received pad behind).pData + 2 + 6) 2 = p.first.type.toList := by
    rw [llcSnap_of_etherType h] at hmem
    refine Mem.read_middle (front ++ snapOf p.first.type.toList)
      (p.first.payload ++ (p.next.frame ++ behind)) (by rw [hmem]; simp) ?_ htype.symm
    rw [List.length_append, hfront, hsnap]
  rw [ralinkPackets]
  dsimp only
  rw [convertTo8023_of_removes (p.removes_etherType pad behind h)]
  dsimp only
  rw [hread]
  exact p.make8023Header_eq _

/-- A length field becomes the number of octets that are left in the frame. -/
theorem AralinkPair.header_length
    (h : removesLlcSnap (p.frame.received pad behind).pHeader
      ((p.frame.received pad behind).pData + 2) = false) :
    (ralinkPackets p.peerFlags (p.frame.received pad behind)).1.header8023 =
      p.first.da.toList ++ p.ad.currentAddress.toList ++
        llcLen ((p.frame.received pad behind).dataSize - 2) := by
  rw [ralinkPackets]
  dsimp only
  rw [convertTo8023_of_not_removes h]
  exact p.make8023Header_eq _

/-- **A length field in front of what looks like an LLC/SNAP header costs the packet its first
octets.** -/
theorem AralinkPair.payloadSize_ne (hmiss : ¬ p.first.IsEtherType) (h : p.startsLlcSnap = true) :
    (ralinkPackets p.peerFlags (p.frame.received pad behind)).1.payload.length ≠
      p.first.payload.length := by
  obtain ⟨-, -, hsize1, -⟩ := ralinkPackets_sizes
    p.peerFlags (p.frame.received pad behind)
  have hm := p.msdu2Size pad behind
  have hn := p.dataSize pad behind
  have hfits := p.fits
  have hframe := length_frame p.next
  have h2 : (2 : UInt16).toNat = 2 := rfl
  have hllc : llcSnapSize (p.frame.received pad behind) = 8 := by
    rw [llcSnapSize, p.removes_length pad behind hmiss, if_pos h]
    rfl
  have h8 : (UInt16.ofNat 8).toNat = 8 := rfl
  have hsize : (ralinkPackets p.peerFlags
      (p.frame.received pad behind)).1.payloadSize.toNat ≠ p.first.payload.length := by
    rw [hsize1, hllc, UInt16.toNat_sub, UInt16.toNat_sub, UInt16.toNat_sub, h2, h8, hm, hn,
      llcSnap_of_length hmiss, List.length_nil]
    omega
  intro hlen
  have hread := Mem.length_read (p.frame.received pad behind).pHeader
    (ralinkPackets p.peerFlags (p.frame.received pad behind)).1.pPayload
    (ralinkPackets p.peerFlags (p.frame.received pad behind)).1.payloadSize.toNat
  exact hsize (hread.symm.trans hlen)

/-! ## 5. What comes out -/

theorem length_header8023 (da sa : Octets macAddrLen) {type : List UInt8} (h : type.length = 2) :
    (da.toList ++ sa.toList ++ type).length = 14 := by
  have hda : da.toList.length = 6 := da.toList_length
  have hsa : sa.toList.length = 6 := sa.toList_length
  rw [List.length_append, List.length_append, hda, hsa, h]

/-- A frame is its header and its payload. -/
theorem frame_eq_iff {header payload : List UInt8} {m : Msdu} (hlen : header.length = 14) :
    header ++ payload = m.frame ↔
      header = m.da.toList ++ m.sa.toList ++ m.type.toList ∧ payload = m.payload := by
  have hframe : m.frame = m.da.toList ++ m.sa.toList ++ m.type.toList ++ m.payload := by
    simp only [Msdu.frame, List.append_assoc]
  rw [hframe]
  constructor
  · exact fun h => List.append_inj h
      (hlen.trans (length_header8023 m.da m.sa m.type.toList_length).symm)
  · rintro ⟨rfl, rfl⟩
    rfl

/-- The three fields of a header. -/
theorem header_eq_iff {m : Msdu} {address : Octets macAddrLen} {type : List UInt8} :
    m.da.toList ++ address.toList ++ type = m.da.toList ++ m.sa.toList ++ m.type.toList ↔
      m.sa = address ∧ type = m.type.toList := by
  have hlen : (m.da.toList ++ address.toList).length = (m.da.toList ++ m.sa.toList).length := by
    simp
  constructor
  · intro h
    obtain ⟨haddr, htype⟩ := List.append_inj h hlen
    exact ⟨Octets.toList_injective (List.append_cancel_left haddr).symm, htype⟩
  · rintro ⟨rfl, rfl⟩
    rfl

/-- As much is taken off as was put in, unless a payload looks like an LLC/SNAP header. -/
theorem AralinkPair.llcSnapSize_eq (h : p.first.IsEtherType ∨ p.startsLlcSnap = false) :
    llcSnapSize (p.frame.received pad behind) = p.first.llcSnap.length := by
  by_cases htype : p.first.IsEtherType
  · rw [llcSnapSize, if_pos (p.removes_etherType pad behind htype), llcSnap_of_etherType htype,
      List.length_append, length_snapOf, p.first.type.toList_length]
    rfl
  · have hstarts := h.resolve_left htype
    rw [llcSnapSize, p.removes_length pad behind htype, hstarts, if_neg Bool.false_ne_true,
      llcSnap_of_length htype]
    rfl

/-- The first packet comes out as it went in if its address and its type say so. -/
theorem AralinkPair.first_eq_iff :
    (ralinkPackets p.peerFlags (p.frame.received pad behind)).1.frame = p.first.frame ↔
      p.first.sa = p.ad.currentAddress ∧ (p.first.IsEtherType ∨ p.startsLlcSnap = false ∧
        p.first.typeValue = p.first.payload.length + p.next.frame.length) := by
  by_cases htype : p.first.IsEtherType
  · rw [Announced.frame, p.header_etherType htype, (p.packets_eq (p.llcSnapSize_eq (.inl htype))).1,
      frame_eq_iff (length_header8023 _ _ p.first.type.toList_length), header_eq_iff]
    simp [htype]
  · cases hstarts : p.startsLlcSnap with
    | true =>
      have hne : (ralinkPackets p.peerFlags (p.frame.received pad behind)).1.payload.length ≠
          p.first.payload.length := p.payloadSize_ne htype hstarts
      simp only [htype, false_or, Bool.true_eq_false, false_and, and_false, iff_false]
      intro heq
      have hheader : (ralinkPackets p.peerFlags
          (p.frame.received pad behind)).1.header8023.length = 14 := by
        rw [ralinkPackets]
        dsimp only
        rw [convertTo8023_of_removes ((p.removes_length pad behind htype).trans hstarts)]
        exact length_make8023Header _ _ _ (Mem.length_read _ _ _)
      rw [Announced.frame, frame_eq_iff hheader] at heq
      exact hne (congrArg List.length heq.2)
    | false =>
      have hremoves := (p.removes_length pad behind htype).trans hstarts
      have hsize : ((p.frame.received pad behind).dataSize - 2).toNat =
          p.first.payload.length + p.next.frame.length := by
        have h2 : (2 : UInt16).toNat = 2 := rfl
        have hfits := p.fits
        have hframe := length_frame p.next
        rw [UInt16.toNat_sub, h2, p.dataSize pad behind, llcSnap_of_length htype, List.length_nil]
        omega
      rw [Announced.frame, p.header_length hremoves,
        (p.packets_eq (p.llcSnapSize_eq (.inr hstarts))).1,
        frame_eq_iff (length_header8023 _ _ (llcLen_length _)), header_eq_iff, llcLen_eq_type, hsize]
      simp [htype]

/-- The second packet comes out as it went in, if as much is taken off as was put in. -/
theorem AralinkPair.announced_iff :
    p.announced pad behind = some (p.first.frame, p.next.frame) ↔ p.Fine := by
  have hm := p.msdu2Size pad behind
  have hn := p.dataSize pad behind
  have hframe := length_frame p.next
  have h1536 : (1536 : UInt16).toNat = 1536 := rfl
  have hlt : msdu2SizeOf (p.frame.received pad behind) < (p.frame.received pad behind).dataSize := by
    rw [UInt16.lt_iff_toNat_lt, hm, hn]
    omega
  have hshort : msdu2SizeOf (p.frame.received pad behind) ≤ 1536 ↔ p.next.payload.length ≤ 1522 := by
    rw [UInt16.le_iff_toNat_le, hm, hframe, h1536]
    omega
  rw [announced, cmmRxRalinkPackets]
  by_cases hle : p.next.payload.length ≤ 1522
  · rw [if_pos ⟨hshort.mpr hle, hlt⟩, if_pos rfl, Option.map_some, Option.some_inj, Prod.mk.injEq,
      p.first_eq_iff]
    constructor
    · rintro ⟨⟨hown, htype⟩, -⟩
      exact ⟨hle, hown, htype⟩
    · intro h
      exact ⟨⟨h.own, h.type⟩, (p.packets_eq (p.llcSnapSize_eq (h.type.imp_right And.left))).2⟩
  · rw [if_neg fun h => hle (hshort.mp h.1), Option.map_none]
    exact ⟨nofun, fun h => absurd h.short hle⟩

end

end

/-! ## 6. Both ends -/

/-- A received frame is released, or its two packets lie in it one behind the other. -/
def RalinkSound (flags : RxAddrFlags) (alloc : Bool) (pRxBlk : RxBlk) : Prop :=
  ∀ first second, cmmRxRalinkPackets flags alloc pRxBlk = some (first, second) →
    Tiles pRxBlk first second

/-- A frame that is released, and one whose length leaves room and has room. -/
def RalinkFits (alloc : Bool) (pRxBlk : RxBlk) : Prop :=
  1536 < (msdu2SizeOf pRxBlk).toNat ∨ pRxBlk.dataSize ≤ msdu2SizeOf pRxBlk ∨ alloc = false ∨
    14 ≤ (msdu2SizeOf pRxBlk).toNat ∧
      2 + llcSnapSize pRxBlk + (msdu2SizeOf pRxBlk).toNat ≤ pRxBlk.dataSize.toNat

theorem ralinkSound_iff (flags : RxAddrFlags) (alloc : Bool) (pRxBlk : RxBlk) :
    RalinkSound flags alloc pRxBlk ↔ RalinkFits alloc pRxBlk := by
  have h1536 : (1536 : UInt16).toNat = 1536 := rfl
  have hle := UInt16.le_iff_toNat_le (a := msdu2SizeOf pRxBlk) (b := 1536)
  rw [h1536] at hle
  rw [RalinkSound, RalinkFits, cmmRxRalinkPackets]
  by_cases hpass : msdu2SizeOf pRxBlk ≤ 1536 ∧ msdu2SizeOf pRxBlk < pRxBlk.dataSize
  · rw [if_pos hpass]
    have hshort := hle.mp hpass.1
    have hroom := UInt16.not_le.mpr hpass.2
    cases alloc with
    | false =>
      refine ⟨fun _ => .inr (.inr (.inl rfl)), fun _ first second h => ?_⟩
      rw [if_neg Bool.false_ne_true] at h
      exact nomatch h
    | true =>
      rw [if_pos rfl]
      have htiles := ralinkPackets_tiles flags pRxBlk hpass.2
      constructor
      · exact fun h => .inr (.inr (.inr (htiles.mp (h _ _ rfl))))
      · rintro (hlong | hcut | halloc | hfits) first second heq
        · omega
        · exact absurd hcut hroom
        · exact nomatch halloc
        · rw [Option.some_inj] at heq
          rw [← show (ralinkPackets flags pRxBlk).1 = first from congrArg Prod.fst heq,
            ← show (ralinkPackets flags pRxBlk).2 = second from congrArg Prod.snd heq]
          exact htiles.mpr hfits
  · rw [if_neg hpass]
    refine ⟨fun _ => ?_, fun _ _ _ h => nomatch h⟩
    rcases not_and_or.mp hpass with hlong | hcut
    · left
      have := mt hle.mpr hlong
      omega
    · exact .inr (.inl (UInt16.not_lt.mp hcut))

/-- **A received frame is taken apart in bounds exactly if its length has room for a header and
leaves room for what stands in front, and two MSDUs come out as they went in exactly if they are
fine.** -/
theorem ralink_iff (flags : RxAddrFlags) (alloc : Bool) (pRxBlk : RxBlk) (p : AralinkPair)
    (pad behind : List UInt8) :
    (RalinkSound flags alloc pRxBlk ↔ RalinkFits alloc pRxBlk) ∧
      (p.announced pad behind = some (p.first.frame, p.next.frame) ↔ p.Fine) :=
  ⟨ralinkSound_iff flags alloc pRxBlk, p.announced_iff⟩

/-- A length of 4 in 40 octets. -/
def Example.shortMsdu2 : RxBlk where
  pHeader := List.replicate 24 0 ++ ([4, 0] ++ List.replicate 38 0)
  pData := 24
  dataSize := 40

/-- **The second payload is then 65526 octets long.** -/
theorem not_ralinkSound_shortMsdu2 :
    ¬ RalinkSound { opModeAp := true } true Example.shortMsdu2 := by
  intro h
  have htiles := h (ralinkPackets { opModeAp := true } Example.shortMsdu2).1
    (ralinkPackets { opModeAp := true } Example.shortMsdu2).2
    (by rw [cmmRxRalinkPackets, if_pos (by decide), if_pos rfl])
  have hend := htiles.secondEnd
  have hsize : (ralinkPackets { opModeAp := true } Example.shortMsdu2).2.payloadSize = 65526 := by
    decide +kernel
  rw [hsize] at hend
  have hdata : Example.shortMsdu2.pData + Example.shortMsdu2.dataSize.toNat = 64 := rfl
  have hwrap : (65526 : UInt16).toNat = 65526 := rfl
  omega

end Mt7601.Data
