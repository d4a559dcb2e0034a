/-
# Packing an A-MSDU, and taking it apart again

`STA_AMSDU_Frame_Tx` puts the packets of its list one behind the other: 12 octets of addresses, the
length, an LLC/SNAP header in front of an EtherType, the payload, and in front of every packet but
the first the padding of the one before it. The 802.11 and QoS headers in front of the first are
taken off by the receiver before `deaggregate_AMSDU_announce` sees the buffer, and are left out.

The encoder takes any length. The decoder looks at the length twice, and after the second look it
may have announced a subframe and still stop.
-/
import Mt7601.Data.Amsdu

namespace Mt7601.Data

/-! ## 1. The encoder -/

/-- A packet of `TxPacketList`. -/
structure TxPacket where
  /-- the memory from the Ethernet header on -/
  pSrcBufHeader : List UInt8
  srcBufLen : Nat
  /-- `RTMP_GET_PACKET_VLAN` -/
  vlan : Bool

/-- `EXTRA_LLCSNAP_ENCAP_FROM_PKT_OFFSET` -/
def extraLlcSnapEncap (type : List UInt8) : Option (List UInt8) :=
  if 1500 < (type.getD 0 0).toNat * 256 + (type.getD 1 0).toNat then
    if type = ipx ∨ type = appleTalk then some snapBridgeTunnel else some snap8021H
  else none

/-- What is left of the packet behind the 802.3 header and the VLAN tag. -/
def TxPacket.pSrcBufData (p : TxPacket) : Nat :=
  length8023 + if p.vlan then 4 else 0

/-- `subFramePayloadLen` -/
def subFramePayloadLenOf (p : TxPacket) : UInt16 :=
  let type := Mem.read p.pSrcBufHeader (p.pSrcBufData - 2) 2
  UInt16.ofNat (p.srcBufLen - p.pSrcBufData) +
    if (extraLlcSnapEncap type).isSome then UInt16.ofNat length8021H else 0

/-- The subframe of a packet: addresses, length, LLC/SNAP header, payload. -/
def amsduSubFrame (p : TxPacket) : List UInt8 :=
  let type := Mem.read p.pSrcBufHeader (p.pSrcBufData - 2) 2
  let subFramePayloadLen := subFramePayloadLenOf p
  Mem.read p.pSrcBufHeader 0 12 ++
    [(subFramePayloadLen / 256).toUInt8, (subFramePayloadLen % 256).toUInt8] ++
    (match extraLlcSnapEncap type with
      | some snap => snap ++ type
      | none => []) ++
    Mem.read p.pSrcBufHeader p.pSrcBufData (p.srcBufLen - p.pSrcBufData)

/-- `ROUND_UP(LENGTH_AMSDU_SUBFRAMEHEAD + subFramePayloadLen, 4)` less what is rounded up -/
def paddingOf (subFramePayloadLen : UInt16) : Nat :=
  (length8023 + subFramePayloadLen.toNat + 3) / 4 * 4 - (length8023 + subFramePayloadLen.toNat)

/-- The loop of `STA_AMSDU_Frame_Tx`: the octets of the A-MSDU it writes. -/
def staAmsduFrameTx : Nat → UInt16 → List TxPacket → List UInt8
  | _, _, [] => []
  | frameNum, subFramePayloadLen, p :: ps =>
    let padding := if frameNum = 0 then 0 else paddingOf subFramePayloadLen
    List.replicate padding 0 ++ amsduSubFrame p ++
      staAmsduFrameTx (frameNum + 1) (subFramePayloadLenOf p) ps

/-! ## 2. MSDUs -/

/-- A packet of the network layer; its length is one an Ethernet interface can have. -/
structure Msdu where
  da : Octets macAddrLen
  sa : Octets macAddrLen
  type : Octets 2
  payload : List UInt8
  length_lt : payload.length + 22 < 65536

/-- The Ethernet frame of an MSDU. -/
def Msdu.frame (m : Msdu) : List UInt8 :=
  m.da.toList ++ (m.sa.toList ++ (m.type.toList ++ m.payload))

/-- The packet it comes in, with a VLAN tag or without. -/
def Msdu.packet (m : Msdu) (tag : Option (Octets 4)) : TxPacket where
  pSrcBufHeader := m.da.toList ++ (m.sa.toList ++
    ((tag.map List.Vector.toList).getD [] ++ (m.type.toList ++ m.payload)))
  srcBufLen := length8023 + (if tag.isSome then 4 else 0) + m.payload.length
  vlan := tag.isSome

/-- The type field is an EtherType and no length. -/
def Msdu.IsEtherType (m : Msdu) : Prop :=
  1500 < (m.type.toList.getD 0 0).toNat * 256 + (m.type.toList.getD 1 0).toNat

/-- The LLC/SNAP header that is put in front of an EtherType. -/
def snapOf (type : List UInt8) : List UInt8 :=
  if type = ipx ∨ type = appleTalk then snapBridgeTunnel else snap8021H

section

variable {m : Msdu} {tag : Option (Octets 4)}

theorem length_snapOf (type : List UInt8) : (snapOf type).length = 6 := by
  rw [snapOf]
  split_ifs <;> rfl

/-- The fields of the packet are where the encoder looks for them. -/
theorem packet_fields (m : Msdu) (tag : Option (Octets 4)) :
    Mem.read (m.packet tag).pSrcBufHeader 0 12 = m.da.toList ++ m.sa.toList ∧
      Mem.read (m.packet tag).pSrcBufHeader ((m.packet tag).pSrcBufData - 2) 2 = m.type.toList ∧
      Mem.read (m.packet tag).pSrcBufHeader (m.packet tag).pSrcBufData m.payload.length =
        m.payload ∧
      (m.packet tag).srcBufLen - (m.packet tag).pSrcBufData = m.payload.length := by
  have hda : m.da.toList.length = 6 := m.da.toList_length
  have hsa : m.sa.toList.length = 6 := m.sa.toList_length
  have htype : m.type.toList.length = 2 := m.type.toList_length
  have htag : ((tag.map List.Vector.toList).getD []).length + 14 = (m.packet tag).pSrcBufData := by
    cases tag with
    | none => rfl
    | some t => simp [Msdu.packet, TxPacket.pSrcBufData, length8023]
  refine ⟨?_, ?_, ?_, ?_⟩
  · refine Mem.read_middle [] _ (List.append_assoc _ _ _).symm rfl ?_
    rw [List.length_append, hda, hsa]
  · refine Mem.read_middle
      (m.da.toList ++ (m.sa.toList ++ (tag.map List.Vector.toList).getD [])) m.payload ?_ ?_
      htype.symm
    · simp [Msdu.packet]
    · simp only [List.length_append]
      omega
  · refine Mem.read_middle (m.da.toList ++ (m.sa.toList ++
      ((tag.map List.Vector.toList).getD [] ++ m.type.toList))) [] ?_ ?_ rfl
    · simp [Msdu.packet]
    · simp only [List.length_append]
      omega
  · exact Nat.add_sub_cancel_left _ _

/-- A length is read as it was written. -/
theorem lengthField_llcLen (n : UInt16) :
    ((llcLen n).getD 1 0).toUInt16 + ((llcLen n).getD 0 0).toUInt16 * 256 = n := by
  refine UInt16.toNat_inj.1 ?_
  have h256 : (256 : UInt16).toNat = 256 := rfl
  have hlt := n.toNat_lt
  simp only [llcLen, List.getD_cons_zero, List.getD_cons_succ, UInt16.toNat_add, UInt16.toNat_mul,
    UInt8.toNat_toUInt16, UInt16.toNat_toUInt8, UInt16.toNat_mod, UInt16.toNat_div, h256]
  omega

/-- **The subframe of an MSDU with an EtherType.** -/
theorem amsduSubFrame_packet (htype : m.IsEtherType) :
    (subFramePayloadLenOf (m.packet tag)).toNat = m.payload.length + 8 ∧
      amsduSubFrame (m.packet tag) = m.da.toList ++ (m.sa.toList ++
        (llcLen (subFramePayloadLenOf (m.packet tag)) ++
          (snapOf m.type.toList ++ (m.type.toList ++ m.payload)))) := by
  obtain ⟨haddr, htypeField, hpayload, hlen⟩ := packet_fields m tag
  have hsnap : extraLlcSnapEncap m.type.toList = some (snapOf m.type.toList) := by
    rw [Msdu.IsEtherType] at htype
    rw [extraLlcSnapEncap, if_pos htype, snapOf]
    split_ifs <;> rfl
  constructor
  · have hlt := m.length_lt
    have h8 : (UInt16.ofNat length8021H).toNat = 8 := rfl
    simp only [subFramePayloadLenOf, htypeField, hlen, hsnap, Option.isSome_some, if_true,
      UInt16.toNat_add, UInt16.toNat_ofNat', h8]
    omega
  · simp only [amsduSubFrame, haddr, htypeField, hlen, hpayload, hsnap, List.append_assoc, llcLen]

end

/-! ## 3. The decoder on one subframe -/

/-- The Ethernet frame of an announcement. -/
def Passed.frame? : Passed → Option (List UInt8)
  | .eapol .. => none
  | .packet _ _ _ octets => some octets

/-- The Ethernet frames that are announced. -/
def Deaggregated.frames (d : Deaggregated) : List (List UInt8) :=
  d.passed.filterMap Passed.frame?

section

variable {m : Msdu} {pData rest : List UInt8} {n : UInt16}

/-- The fields of the subframe are where the decoder looks for them. -/
theorem subFrame_fields (hmem : pData = m.da.toList ++ (m.sa.toList ++ (llcLen n ++
    (snapOf m.type.toList ++ (m.type.toList ++ (m.payload ++ rest)))))) :
    Mem.read pData 0 6 = m.da.toList ∧ Mem.read pData 6 6 = m.sa.toList ∧
      Mem.read pData 12 2 = llcLen n ∧ Mem.read pData 14 6 = snapOf m.type.toList ∧
      Mem.read pData 20 2 = m.type.toList ∧ Mem.read pData 22 m.payload.length = m.payload := by
  have hda : m.da.toList.length = 6 := m.da.toList_length
  have hsa : m.sa.toList.length = 6 := m.sa.toList_length
  have hlen : (llcLen n).length = 2 := rfl
  have hsnap := length_snapOf m.type.toList
  have htype : m.type.toList.length = 2 := m.type.toList_length
  refine ⟨?_, ?_, ?_, ?_, ?_, ?_⟩
  · exact Mem.read_middle [] _ hmem rfl hda.symm
  · exact Mem.read_middle m.da.toList _ hmem hda.symm hsa.symm
  · refine Mem.read_middle (m.da.toList ++ m.sa.toList)
      (snapOf m.type.toList ++ (m.type.toList ++ (m.payload ++ rest))) ?_ ?_ hlen.symm
    · rw [hmem, List.append_assoc]
    · rw [List.length_append, hda, hsa]
  · refine Mem.read_middle (m.da.toList ++ m.sa.toList ++ llcLen n)
      (m.type.toList ++ (m.payload ++ rest)) ?_ ?_ hsnap.symm
    · simp only [hmem, List.append_assoc]
    · simp only [List.length_append, hda, hsa, hlen]
  · refine Mem.read_middle (m.da.toList ++ m.sa.toList ++ llcLen n ++ snapOf m.type.toList)
      (m.payload ++ rest) ?_ ?_ htype.symm
    · simp only [hmem, List.append_assoc]
    · simp only [List.length_append, hda, hsa, hlen, hsnap]
  · refine Mem.read_middle (m.da.toList ++ m.sa.toList ++ llcLen n ++ snapOf m.type.toList ++
      m.type.toList) rest ?_ ?_ rfl
    · simp only [hmem, List.append_assoc]
    · simp only [List.length_append, hda, hsa, hlen, hsnap, htype]

/-- The length field is the one that was written. -/
theorem payloadSizeOf_subFrame (hlen : Mem.read pData 12 2 = llcLen n) :
    payloadSizeOf pData = n := by
  have h0 := Mem.getD_read pData 12 (show 0 < 2 by decide)
  have h1 := Mem.getD_read pData 12 (show 1 < 2 by decide)
  rw [hlen] at h0 h1
  rw [payloadSizeOf, ← h0, ← h1]
  exact lengthField_llcLen n

/-- An LLC/SNAP header that the encoder puts in is one the decoder takes off. -/
theorem removesLlcSnap_of_snapOf {mem type : List UInt8} {off : Nat}
    (hsnap : Mem.read mem off 6 = snapOf type) (htype : Mem.read mem (off + 6) 2 = type) :
    removesLlcSnap mem off = true := by
  have hne : snapBridgeTunnel ≠ snap8021H := by decide
  rw [removesLlcSnap, decide_eq_true_eq]
  rw [hsnap, htype, snapOf]
  split_ifs with hproto
  · exact ⟨.inr rfl, fun h => hne h.2⟩
  · exact ⟨.inl rfl, fun h => hproto h.1⟩

/-- What goes to the supplicant is not announced. -/
theorem filterMap_toMlme (c : Prop) [Decidable c] (pPayload : Nat) (payloadSize : UInt16)
    (octets : List UInt8) :
    (if c then [Passed.eapol pPayload payloadSize octets] else []).filterMap Passed.frame? =
      [] := by
  split_ifs <;> rfl

/-- **The frame that is announced is the frame that was sent.** -/
theorem frames_announceSubFrame {allocs : Allocs} {off : Nat} (hclone : allocs.clone = true)
    (hn : n.toNat = m.payload.length + 8)
    (hmem : pData = m.da.toList ++ (m.sa.toList ++ (llcLen n ++
      (snapOf m.type.toList ++ (m.type.toList ++ (m.payload ++ rest)))))) :
    (announceSubFrame allocs off pData n).1.filterMap Passed.frame? = [m.frame] := by
  obtain ⟨hda, hsa, -, hsnap, htype, hpayload⟩ := subFrame_fields hmem
  have hremoves : removesLlcSnap pData length8023 = true := removesLlcSnap_of_snapOf hsnap htype
  have hheader : make8023Header pData 0 macAddrLen (Mem.read pData (length8023 + 6) 2) =
      m.da.toList ++ m.sa.toList ++ m.type.toList := by
    rw [make8023Header]
    rw [show Mem.read pData 0 macAddrLen = _ from hda,
      show Mem.read pData macAddrLen macAddrLen = _ from hsa,
      show Mem.read pData (length8023 + 6) 2 = _ from htype]
  have hlength : (m.da.toList ++ m.sa.toList ++ m.type.toList).length = 14 := by
    rw [List.length_append, List.length_append, m.da.toList_length, m.sa.toList_length,
      m.type.toList_length, macAddrLen]
  have hsize : (n - UInt16.ofNat length8021H + UInt16.ofNat length8023).toNat =
      14 + m.payload.length := by
    have h14 : (UInt16.ofNat length8023).toNat = 14 := rfl
    have h8 : (UInt16.ofNat length8021H).toNat = 8 := rfl
    have hlt := m.length_lt
    rw [UInt16.toNat_add, UInt16.toNat_sub, h14, h8]
    omega
  have hread : Mem.read (Mem.write pData 8 (m.da.toList ++ m.sa.toList ++ m.type.toList)) 8
      (14 + m.payload.length) = m.frame := by
    have hfront := Mem.read_write pData (m.da.toList ++ m.sa.toList ++ m.type.toList) 8
    have hbehind : (Mem.write pData 8 (m.da.toList ++ m.sa.toList ++ m.type.toList)).drop 22 =
        pData.drop 22 := Mem.drop_write (by rw [hlength])
    rw [hlength] at hfront
    rw [Mem.read_add, hfront, Mem.read, hbehind]
    rw [show (pData.drop 22).takeD m.payload.length 0 = _ from hpayload, Msdu.frame]
    simp only [List.append_assoc]
  rw [announceSubFrame, convertTo8023_of_removes hremoves, hheader,
    if_pos hclone, List.filterMap_append, filterMap_toMlme, List.nil_append]
  dsimp only
  rw [if_pos rfl, if_pos rfl, if_pos rfl, hsize]
  rw [show length8023 + length8021H - length8023 = 8 from rfl]
  simp only [List.filterMap_cons, List.filterMap_nil, Passed.frame?, hread]

/-- The size of a subframe with its padding. -/
def Msdu.alignedSize (m : Msdu) : Nat := (m.payload.length + 25) / 4 * 4

/-- **The decoder at a subframe of the encoder**: the two looks it takes at the length. -/
theorem frames_deaggregateAmsduAnnounce {allocs : Nat → Allocs} {nMsdu off dataSize : Nat}
    (hclone : ∀ n, (allocs n).clone = true) (hn : n.toNat = m.payload.length + 8)
    (hmem : pData = m.da.toList ++ (m.sa.toList ++ (llcLen n ++
      (snapOf m.type.toList ++ (m.type.toList ++ (m.payload ++ rest))))))
    (hsize : m.payload.length + 22 ≤ dataSize) :
    (deaggregateAmsduAnnounce allocs nMsdu off pData dataSize).frames =
      if 1510 < m.payload.length then []
      else if 1506 < m.payload.length ∨ m.payload.length < 7 then [m.frame]
      else if m.alignedSize < dataSize then
        m.frame :: (deaggregateAmsduAnnounce allocs (nMsdu + 1) (off + m.alignedSize)
          (pData.drop m.alignedSize) (dataSize - m.alignedSize)).frames
      else [m.frame] := by
  obtain ⟨-, -, hlen, hsnap, htype, -⟩ := subFrame_fields hmem
  have hpayload : payloadSizeOf pData = n := payloadSizeOf_subFrame hlen
  have h14 : length8023 = 14 := rfl
  have h1518 : (1518 : UInt16).toNat = 1518 := rfl
  have hlen : length8023 < dataSize := by omega
  rw [deaggregateAmsduAnnounce, if_pos hlen]
  by_cases hlong : 1510 < m.payload.length
  · have hbreak : dataSize < (subFrameSizeOf pData).toNat ∨ 1518 < payloadSizeOf pData := by
      right
      rw [hpayload, UInt16.lt_iff_toNat_lt, h1518]
      omega
    rw [if_pos hlong, if_pos hbreak]
    rfl
  have hle : payloadSizeOf pData ≤ 1518 := by
    rw [hpayload, UInt16.le_iff_toNat_le, h1518]
    omega
  have haligned : (alignedSizeOf pData).toNat = m.alignedSize := by
    rw [toNat_alignedSizeOf hle, hpayload, hn, Msdu.alignedSize]
  have hfirst : ¬ (dataSize < (subFrameSizeOf pData).toNat ∨ 1518 < payloadSizeOf pData) := by
    rw [not_or, UInt16.not_lt]
    refine ⟨?_, hle⟩
    rw [toNat_subFrameSizeOf hle, hpayload, hn]
    omega
  have hcovers : SubFrame.CoversLlcSnap ⟨off, pData⟩ := by
    intro _
    rw [hpayload, hn]
    exact Nat.le_add_left _ _
  have hframe : (announceSubFrame (allocs nMsdu) off pData n).1.filterMap Passed.frame? =
      [m.frame] := frames_announceSubFrame (hclone nMsdu) hn hmem
  have hsecond : (1528 < alignedSizeOf pData ∨ alignedSizeOf pData < 32) ↔
      (1506 < m.payload.length ∨ m.payload.length < 7) := by
    have h1528 : (1528 : UInt16).toNat = 1528 := rfl
    have h32 : (32 : UInt16).toNat = 32 := rfl
    rw [UInt16.lt_iff_toNat_lt, UInt16.lt_iff_toNat_lt, h1528, h32, haligned, Msdu.alignedSize]
    omega
  rw [if_neg hlong, if_neg hfirst]
  by_cases hstop : 1528 < alignedSizeOf pData ∨ alignedSizeOf pData < 32
  · rw [dif_pos hstop, if_pos (hsecond.1 hstop), hpayload]
    exact hframe
  · rw [dif_neg hstop, if_neg (mt hsecond.2 hstop), drop_announceSubFrame hle hcovers, haligned,
      hpayload]
    by_cases hmore : m.alignedSize < dataSize
    · rw [if_pos hmore, if_pos hmore]
      rw [Deaggregated.frames, List.filterMap_append, hframe]
      rfl
    · rw [if_neg hmore, if_neg hmore]
      exact hframe

end

/-! ## 4. The whole A-MSDU -/

/-- The A-MSDU of a list of MSDUs, each with its VLAN tag. -/
def amsdu (ms : List (Msdu × Option (Octets 4))) : List UInt8 :=
  staAmsduFrameTx 0 0 (ms.map fun m => m.1.packet m.2)

/-- Behind the first packet the number of the packet does not matter. -/
theorem staAmsduFrameTx_succ (ps : List TxPacket) :
    ∀ (j k : Nat) (len : UInt16),
      staAmsduFrameTx (j + 1) len ps = staAmsduFrameTx (k + 1) len ps := by
  induction ps with
  | nil =>
    intro j k len
    rfl
  | cons p ps ih =>
    intro j k len
    rw [staAmsduFrameTx, staAmsduFrameTx, ih (j + 1) (k + 1)]
    simp

/-- A subframe, its padding, and the rest. -/
theorem amsdu_cons_cons (m q : Msdu × Option (Octets 4)) (ms : List (Msdu × Option (Octets 4))) :
    amsdu (m :: q :: ms) = amsduSubFrame (m.1.packet m.2) ++
      (List.replicate (paddingOf (subFramePayloadLenOf (m.1.packet m.2))) 0 ++
        amsdu (q :: ms)) := by
  simp only [amsdu, List.map_cons]
  rw [staAmsduFrameTx, staAmsduFrameTx, staAmsduFrameTx, staAmsduFrameTx_succ _ 1 0]
  simp

theorem amsdu_singleton (m : Msdu × Option (Octets 4)) :
    amsdu [m] = amsduSubFrame (m.1.packet m.2) := by
  simp [amsdu, staAmsduFrameTx]

/-- The MSDUs the decoder gets to announce: it stops at the first that is too long, and behind the
first that is short or nearly too long. -/
def deliverable : List Msdu → List Msdu
  | [] => []
  | m :: ms =>
    if 1510 < m.payload.length then []
    else if 1506 < m.payload.length ∨ m.payload.length < 7 then [m]
    else m :: deliverable ms

/-- The subframe of an MSDU in front of anything is a subframe the decoder reads. -/
theorem amsduSubFrame_append {m : Msdu × Option (Octets 4)} (htype : m.1.IsEtherType)
    (rest : List UInt8) :
    amsduSubFrame (m.1.packet m.2) ++ rest = m.1.da.toList ++ (m.1.sa.toList ++
      (llcLen (subFramePayloadLenOf (m.1.packet m.2)) ++ (snapOf m.1.type.toList ++
        (m.1.type.toList ++ (m.1.payload ++ rest))))) := by
  rw [(amsduSubFrame_packet htype).2]
  simp only [List.append_assoc]

theorem length_amsduSubFrame {m : Msdu × Option (Octets 4)} (htype : m.1.IsEtherType) :
    (amsduSubFrame (m.1.packet m.2)).length = m.1.payload.length + 22 := by
  have hlen : (llcLen (subFramePayloadLenOf (m.1.packet m.2))).length = 2 := rfl
  have hsnap := length_snapOf m.1.type.toList
  have hda : m.1.da.toList.length = 6 := m.1.da.toList_length
  have hsa : m.1.sa.toList.length = 6 := m.1.sa.toList_length
  have hlast : m.1.type.toList.length = 2 := m.1.type.toList_length
  rw [(amsduSubFrame_packet htype).2]
  simp only [List.length_append, hlen, hsnap, hda, hsa, hlast]
  omega

/-- **What is announced of an A-MSDU**: the frames of the MSDUs that are deliverable, each once, in
their order, as they were sent. -/
theorem frames_amsdu {allocs : Nat → Allocs} (hclone : ∀ n, (allocs n).clone = true)
    (behind : List UInt8) : ∀ (ms : List (Msdu × Option (Octets 4))) (nMsdu off : Nat),
      (∀ m ∈ ms, m.1.IsEtherType) →
      (deaggregateAmsduAnnounce allocs nMsdu off (amsdu ms ++ behind) (amsdu ms).length).frames =
        (deliverable (ms.map Prod.fst)).map Msdu.frame
  | [], nMsdu, off, _ => by
    have hempty : ¬ length8023 < (amsdu []).length := Nat.not_lt_zero _
    rw [deaggregateAmsduAnnounce, if_neg hempty]
    rfl
  | [m], nMsdu, off, htype => by
    have hm : m.1.IsEtherType := htype m List.mem_cons_self
    have hlength := length_amsduSubFrame hm
    rw [amsdu_singleton, frames_deaggregateAmsduAnnounce hclone (amsduSubFrame_packet hm).1
      (amsduSubFrame_append hm behind) (Nat.le_of_eq hlength.symm)]
    simp only [List.map_cons, List.map_nil, deliverable]
    have hend : ¬ m.1.alignedSize < (amsduSubFrame (m.1.packet m.2)).length := by
      rw [hlength, Msdu.alignedSize]
      omega
    rw [if_neg hend]
    split_ifs <;> rfl
  | m :: q :: ms, nMsdu, off, htype => by
    have hm : m.1.IsEtherType := htype m List.mem_cons_self
    have hlength := length_amsduSubFrame hm
    have hlen : (subFramePayloadLenOf (m.1.packet m.2)).toNat = m.1.payload.length + 8 :=
      (amsduSubFrame_packet hm).1
    have ih := frames_amsdu hclone behind (q :: ms) (nMsdu + 1) (off + m.1.alignedSize)
      fun x hx => htype x (List.mem_cons_of_mem _ hx)
    -- the subframe and its padding are what the decoder passes over
    have hpadding : paddingOf (subFramePayloadLenOf (m.1.packet m.2)) + (m.1.payload.length + 22) =
        m.1.alignedSize := by
      have h14 : length8023 = 14 := rfl
      rw [paddingOf, hlen, Msdu.alignedSize, h14]
      omega
    have hfront : (amsduSubFrame (m.1.packet m.2) ++
        List.replicate (paddingOf (subFramePayloadLenOf (m.1.packet m.2))) 0).length =
          m.1.alignedSize := by
      rw [List.length_append, hlength, List.length_replicate, Nat.add_comm, hpadding]
    have hsplit : amsdu (m :: q :: ms) = (amsduSubFrame (m.1.packet m.2) ++
        List.replicate (paddingOf (subFramePayloadLenOf (m.1.packet m.2))) 0) ++
          amsdu (q :: ms) := by
      rw [amsdu_cons_cons, List.append_assoc]
    have htotal : (amsdu (m :: q :: ms)).length = m.1.alignedSize + (amsdu (q :: ms)).length := by
      rw [hsplit, List.length_append, hfront]
    have hnext : (amsdu (m :: q :: ms) ++ behind).drop m.1.alignedSize =
        amsdu (q :: ms) ++ behind := by
      rw [hsplit, List.append_assoc, List.drop_left' hfront]
    have hpos : 0 < (amsdu (q :: ms)).length := by
      have hq : q.1.IsEtherType := htype q (List.mem_cons_of_mem _ List.mem_cons_self)
      have hqlen := length_amsduSubFrame hq
      cases ms with
      | nil =>
        rw [amsdu_singleton]
        omega
      | cons r ms =>
        rw [amsdu_cons_cons, List.length_append]
        omega
    have hmem := amsduSubFrame_append hm
      (List.replicate (paddingOf (subFramePayloadLenOf (m.1.packet m.2))) 0 ++
        (amsdu (q :: ms) ++ behind))
    rw [← List.append_assoc, ← List.append_assoc, ← hsplit] at hmem
    rw [frames_deaggregateAmsduAnnounce hclone hlen hmem (by rw [htotal, Msdu.alignedSize]; omega),
      hnext, htotal, Nat.add_sub_cancel_left, ih, if_pos (Nat.lt_add_of_pos_right hpos)]
    simp only [List.map_cons, deliverable]
    split_ifs <;> rfl

/-- No MSDU is too long, and none but the last is short or nearly too long. -/
def Fits : List Msdu → Prop
  | [] => True
  | [m] => m.payload.length ≤ 1510
  | m :: q :: ms => 7 ≤ m.payload.length ∧ m.payload.length ≤ 1506 ∧ Fits (q :: ms)

theorem deliverable_eq_self_iff : ∀ ms : List Msdu, deliverable ms = ms ↔ Fits ms
  | [] => by simp [deliverable, Fits]
  | [m] => by
    rw [deliverable, Fits]
    split_ifs with hlong hstop
    · simpa using hlong
    · simpa using hlong
    · simpa [deliverable] using hlong
  | m :: q :: ms => by
    rw [deliverable, Fits]
    have ih := deliverable_eq_self_iff (q :: ms)
    split_ifs with hlong hstop
    · constructor
      · intro h
        exact nomatch h
      · rintro ⟨-, hle, -⟩
        omega
    · constructor
      · intro h
        exact nomatch (List.cons.inj h).2
      · rintro ⟨hge, hle, -⟩
        omega
    · rw [List.cons_inj_right, ih]
      constructor
      · intro h
        exact ⟨by omega, by omega, h⟩
      · exact fun h => h.2.2

/-- The frames of different MSDUs are different. -/
theorem Msdu.frame_injective : Function.Injective Msdu.frame := by
  intro m q h
  obtain ⟨hda, h⟩ := List.append_inj h (by rw [m.da.toList_length, q.da.toList_length])
  obtain ⟨hsa, h⟩ := List.append_inj h (by rw [m.sa.toList_length, q.sa.toList_length])
  obtain ⟨htype, hpayload⟩ := List.append_inj h (by rw [m.type.toList_length, q.type.toList_length])
  cases m
  cases q
  simp only [mk.injEq]
  exact ⟨Octets.toList_injective hda, Octets.toList_injective hsa, Octets.toList_injective htype,
    hpayload⟩

/-- **The round trip.** Of a list of MSDUs with EtherTypes an initial part is announced, each once,
in order and as it was sent, and it is the whole list exactly if the lengths fit. -/
theorem amsdu_roundTrip {allocs : Nat → Allocs} (hclone : ∀ n, (allocs n).clone = true)
    (behind : List UInt8) (ms : List (Msdu × Option (Octets 4)))
    (htype : ∀ m ∈ ms, m.1.IsEtherType) :
    let frames :=
      (deaggregateAmsduAnnounce allocs 0 0 (amsdu ms ++ behind) (amsdu ms).length).frames
    frames = (deliverable (ms.map Prod.fst)).map Msdu.frame ∧
      (frames = (ms.map Prod.fst).map Msdu.frame ↔ Fits (ms.map Prod.fst)) := by
  intro frames
  have hframes : frames = (deliverable (ms.map Prod.fst)).map Msdu.frame :=
    frames_amsdu hclone behind ms 0 0 htype
  refine ⟨hframes, ?_⟩
  rw [hframes, (List.map_injective_iff.2 Msdu.frame_injective).eq_iff]
  exact deliverable_eq_self_iff _

namespace Example

/-- An MSDU of IPv4 with a payload of some length. -/
def ipMsdu (n : Nat) (h : n + 22 < 65536) : Msdu where
  da := List.Vector.replicate 6 1
  sa := List.Vector.replicate 6 2
  type := ⟨[0x08, 0x00], rfl⟩
  payload := List.replicate n 0x45
  length_lt := by simpa using h

/-- Two MSDUs of 40 octets, the second with a VLAN tag. -/
theorem amsdu_roundTrip_two :
    let ms := [(ipMsdu 40 (by decide), none), (ipMsdu 40 (by decide), some (.zero 4))]
    let frames :=
      (deaggregateAmsduAnnounce (fun _ => ⟨true, true⟩) 0 0 (amsdu ms ++ [])
        (amsdu ms).length).frames
    frames = (deliverable (ms.map Prod.fst)).map Msdu.frame ∧
      (frames = (ms.map Prod.fst).map Msdu.frame ↔ Fits (ms.map Prod.fst)) :=
  amsdu_roundTrip (fun _ => rfl) [] _ (by simp [ipMsdu, Msdu.IsEtherType, List.Vector.toList])

/-- A short MSDU in front of another: the other is not announced. -/
theorem not_roundTrip_short :
    let ms : List (Msdu × Option (Octets 4)) :=
      [(ipMsdu 6 (by decide), none), (ipMsdu 40 (by decide), none)]
    (deaggregateAmsduAnnounce (fun _ => ⟨true, true⟩) 0 0 (amsdu ms) (amsdu ms).length).frames ≠
      (ms.map Prod.fst).map Msdu.frame := by
  intro ms h
  have htype : ∀ m ∈ ms, m.1.IsEtherType := by
    simp [ms, ipMsdu, Msdu.IsEtherType, List.Vector.toList]
  have hclone : ∀ n, ((fun _ => ⟨true, true⟩ : Nat → Allocs) n).clone = true := fun _ => rfl
  have hframes := frames_amsdu hclone [] ms 0 0 htype
  rw [List.append_nil, h] at hframes
  have hlen := congrArg List.length hframes
  rw [List.length_map, List.length_map, List.length_map] at hlen
  exact absurd hlen (by decide)

end Example

end Mt7601.Data
