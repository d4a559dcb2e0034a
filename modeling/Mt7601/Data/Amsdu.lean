/-
# Taking an A-MSDU apart

`deaggregate_AMSDU_announce` walks the subframes of an A-MSDU: 14 octets of header, the last two of
them the length of the payload, the payload, and padding to a multiple of 4. Of each subframe it
makes an Ethernet frame where it lies: an LLC/SNAP header is taken off the payload and the Ethernet
header is written over its end. The loop works on the memory from its data pointer on, which is
what `pData` is here; `off` is how far the pointer has come.

The lengths are unsigned and 16 bits wide. `reached` is the walk without the announcements, and
`Passed.Sound` is what every announcement is to be.
-/
import Mt7601.Data.Defs

namespace Mt7601.Data

/-! ## 1. `CONVERT_TO_802_3` -/

/-- What the macro sets: the 802.3 header, the data pointer and size behind the LLC/SNAP header,
and whether there was one to take off. -/
structure To8023 where
  header8023 : List UInt8
  pData : Nat
  dataSize : UInt16
  removedLlcSnap : Bool

/-- `MAKE_802_3_HEADER` -/
def make8023Header (mem : List UInt8) (pDA pSA : Nat) (type : List UInt8) : List UInt8 :=
  Mem.read mem pDA macAddrLen ++ Mem.read mem pSA macAddrLen ++ type

/-- `LLC_Len` -/
def llcLen (dataSize : UInt16) : List UInt8 :=
  [(dataSize / 256).toUInt8, (dataSize % 256).toUInt8]

/-- `CONVERT_TO_802_3` -/
def convertTo8023 (mem : List UInt8) (pDA pSA pData : Nat) (dataSize : UInt16) : To8023 :=
  let llc := Mem.read mem pData 6
  let proto := Mem.read mem (pData + 6) 2
  let keep : To8023 :=
    { header8023 := make8023Header mem pDA pSA (llcLen dataSize)
      pData := pData
      dataSize := dataSize
      removedLlcSnap := false }
  if llc = snap8021H ∨ llc = snapBridgeTunnel then
    if (proto = ipx ∨ proto = appleTalk) ∧ llc = snap8021H then keep
    else
      { header8023 := make8023Header mem pDA pSA proto
        pData := pData + length8021H
        dataSize := dataSize - UInt16.ofNat length8021H
        removedLlcSnap := true }
  else keep

/-- The octets at `pData` are an LLC/SNAP header that is taken off. -/
def removesLlcSnap (mem : List UInt8) (pData : Nat) : Bool :=
  let llc := Mem.read mem pData 6
  let proto := Mem.read mem (pData + 6) 2
  (llc = snap8021H ∨ llc = snapBridgeTunnel) ∧
    ¬ ((proto = ipx ∨ proto = appleTalk) ∧ llc = snap8021H)

section

variable {mem : List UInt8} {pDA pSA pData : Nat} {dataSize : UInt16}

theorem convertTo8023_of_removes (h : removesLlcSnap mem pData = true) :
    convertTo8023 mem pDA pSA pData dataSize =
      { header8023 := make8023Header mem pDA pSA (Mem.read mem (pData + 6) 2)
        pData := pData + length8021H
        dataSize := dataSize - UInt16.ofNat length8021H
        removedLlcSnap := true } := by
  rw [removesLlcSnap, decide_eq_true_eq] at h
  rw [convertTo8023, if_pos h.1, if_neg h.2]

theorem convertTo8023_of_not_removes (h : removesLlcSnap mem pData = false) :
    convertTo8023 mem pDA pSA pData dataSize =
      { header8023 := make8023Header mem pDA pSA (llcLen dataSize)
        pData := pData
        dataSize := dataSize
        removedLlcSnap := false } := by
  rw [removesLlcSnap, decide_eq_false_iff_not, not_and, not_not] at h
  simp only [convertTo8023]
  split_ifs with hllc hproto
  · rfl
  · exact absurd (h hllc) hproto
  · rfl

end

/-! ## 2. The loop -/

/-- Which of the two allocations a subframe asks for succeed. -/
structure Allocs where
  /-- `os_alloc_mem` of an `MLME_QUEUE_ELEM` -/
  elem : Bool
  /-- `ClonePacket` -/
  clone : Bool

/-- What is handed on of a subframe. -/
inductive Passed
  /-- the copy of `payloadSize` octets from `pPayload` on to an `MLME_QUEUE_ELEM`, behind the room
  for the 802.11 and the LLC header -/
  | eapol (pPayload : Nat) (payloadSize : UInt16) (octets : List UInt8)
  /-- the clone that is announced -/
  | packet (pPayload : Nat) (payloadSize : UInt16) (removedLlcSnap : Bool) (octets : List UInt8)
deriving Repr, DecidableEq

/-- `PayloadSize`, from `pAMSDUsubheader->Octet` -/
def payloadSizeOf (pData : List UInt8) : UInt16 :=
  (pData.getD 13 0).toUInt16 + (pData.getD 12 0).toUInt16 * 256

/-- `SubFrameSize` at the first check -/
def subFrameSizeOf (pData : List UInt8) : UInt16 :=
  payloadSizeOf pData + UInt16.ofNat length8023

/-- `SubFrameSize` at the second check, `(SubFrameSize+3)&(~0x3)` -/
def alignedSizeOf (pData : List UInt8) : UInt16 :=
  UInt16.ofNat (((subFrameSizeOf pData).toNat + 3) / 4 * 4)

/-- The body of the loop between its two checks: what is handed on of the subframe at `pData`, and
the memory afterwards. -/
def announceSubFrame (allocs : Allocs) (off : Nat) (pData : List UInt8) (payloadSize : UInt16) :
    List Passed × List UInt8 :=
  let to8023 := convertTo8023 pData 0 macAddrLen length8023 payloadSize
  let toMlme :=
    if (to8023.header8023.drop 12).take 2 = eapol ∧ allocs.elem then
      [Passed.eapol (off + to8023.pData) to8023.dataSize
        (Mem.read pData to8023.pData to8023.dataSize.toNat)]
    else []
  let pPayload := if to8023.removedLlcSnap then to8023.pData - length8023 else to8023.pData
  let size :=
    if to8023.removedLlcSnap then to8023.dataSize + UInt16.ofNat length8023 else to8023.dataSize
  let mem := if to8023.removedLlcSnap then Mem.write pData pPayload to8023.header8023 else pData
  let announced :=
    if allocs.clone then
      [Passed.packet (off + pPayload) size to8023.removedLlcSnap (Mem.read mem pPayload size.toNat)]
    else []
  (toMlme ++ announced, mem)

/-- What the function hands on, and the number it returns. -/
structure Deaggregated where
  passed : List Passed
  nMsdu : Nat

/-- `deaggregate_AMSDU_announce` in station mode. `allocs` says how the allocations of each
subframe go. -/
def deaggregateAmsduAnnounce (allocs : Nat → Allocs) (nMsdu off : Nat) (pData : List UInt8)
    (dataSize : Nat) : Deaggregated :=
  if length8023 < dataSize then
    if dataSize < (subFrameSizeOf pData).toNat ∨ 1518 < payloadSizeOf pData then ⟨[], nMsdu + 1⟩
    else
      let res := announceSubFrame (allocs nMsdu) off pData (payloadSizeOf pData)
      if hsize : 1528 < alignedSizeOf pData ∨ alignedSizeOf pData < 32 then ⟨res.1, nMsdu + 1⟩
      else if (alignedSizeOf pData).toNat < dataSize then
        let next := deaggregateAmsduAnnounce allocs (nMsdu + 1) (off + (alignedSizeOf pData).toNat)
          (res.2.drop (alignedSizeOf pData).toNat) (dataSize - (alignedSizeOf pData).toNat)
        ⟨res.1 ++ next.passed, next.nMsdu⟩
      else ⟨res.1, nMsdu + 1⟩
  else ⟨[], nMsdu⟩
termination_by dataSize
decreasing_by
  -- the subframe that is passed over has 32 octets at least
  have h32 : 32 ≤ (alignedSizeOf pData).toNat := UInt16.not_lt.1 (not_or.1 hsize).2
  omega

/-! ## 3. The walk -/

/-- A subframe the loop comes to: where it is, and the memory from it on. -/
structure SubFrame where
  off : Nat
  pData : List UInt8

/-- The subframes of a buffer that pass the first check of the loop, in their order. -/
def reached (off : Nat) (pData : List UInt8) (dataSize : Nat) : List SubFrame :=
  if length8023 < dataSize then
    if dataSize < (subFrameSizeOf pData).toNat ∨ 1518 < payloadSizeOf pData then []
    else if _hsize : 1528 < alignedSizeOf pData ∨ alignedSizeOf pData < 32 then [⟨off, pData⟩]
    else if (alignedSizeOf pData).toNat < dataSize then
      ⟨off, pData⟩ :: reached (off + (alignedSizeOf pData).toNat)
        (pData.drop (alignedSizeOf pData).toNat) (dataSize - (alignedSizeOf pData).toNat)
    else [⟨off, pData⟩]
  else []
termination_by dataSize
decreasing_by
  have h32 : 32 ≤ (alignedSizeOf pData).toNat := UInt16.not_lt.1 (not_or.1 _hsize).2
  omega

/-- Its payload is no shorter than the LLC/SNAP header that is taken off it. -/
def SubFrame.CoversLlcSnap (s : SubFrame) : Prop :=
  removesLlcSnap s.pData length8023 = true → length8021H ≤ (payloadSizeOf s.pData).toNat

/-- What is handed on lies in the buffer, between `lo` and `hi`; the payload of an Ethernet frame
has no negative length, and a copy fits its queue element. -/
def Passed.Sound (lo hi : Nat) : Passed → Prop
  | .eapol pPayload payloadSize _ =>
    lo ≤ pPayload ∧ pPayload + payloadSize.toNat ≤ hi ∧
      length80211 + length8021H + payloadSize.toNat ≤ mgmtDmaBufferSize
  | .packet pPayload payloadSize removedLlcSnap _ =>
    lo ≤ pPayload ∧ pPayload + payloadSize.toNat ≤ hi ∧
      (removedLlcSnap = true → length8023 ≤ payloadSize.toNat)

/-! ## 4. One subframe -/

section

variable {allocs : Allocs} {off : Nat} {pData : List UInt8} {dataSize : Nat}

theorem toNat_subFrameSizeOf (h : payloadSizeOf pData ≤ 1518) :
    (subFrameSizeOf pData).toNat = (payloadSizeOf pData).toNat + 14 := by
  have hle : (payloadSizeOf pData).toNat ≤ 1518 := h
  have h14 : (UInt16.ofNat length8023).toNat = 14 := rfl
  rw [subFrameSizeOf, UInt16.toNat_add, h14]
  omega

theorem toNat_alignedSizeOf (h : payloadSizeOf pData ≤ 1518) :
    (alignedSizeOf pData).toNat = ((payloadSizeOf pData).toNat + 17) / 4 * 4 := by
  have hle : (payloadSizeOf pData).toNat ≤ 1518 := h
  rw [alignedSizeOf, toNat_subFrameSizeOf h, UInt16.toNat_ofNat']
  omega

@[simp] theorem length_make8023Header (mem : List UInt8) (pDA pSA : Nat) {type : List UInt8}
    (h : type.length = 2) : (make8023Header mem pDA pSA type).length = 14 := by
  simp [make8023Header, h, macAddrLen]

/-- **A subframe that covers its LLC/SNAP header is handed on in its own bounds.** -/
theorem sound_announceSubFrame {hi : Nat} (hpayload : payloadSizeOf pData ≤ 1518)
    (hhi : off + 14 + (payloadSizeOf pData).toNat ≤ hi)
    (hcovers : SubFrame.CoversLlcSnap ⟨off, pData⟩) :
    ∀ p ∈ (announceSubFrame allocs off pData (payloadSizeOf pData)).1, p.Sound off hi := by
  have hle : (payloadSizeOf pData).toNat ≤ 1518 := hpayload
  have h14 : length8023 = 14 ∧ (UInt16.ofNat length8023).toNat = 14 := ⟨rfl, rfl⟩
  have h8 : length8021H = 8 ∧ (UInt16.ofNat length8021H).toNat = 8 := ⟨rfl, rfl⟩
  have hroom : length80211 = 24 ∧ mgmtDmaBufferSize = 1600 := ⟨rfl, rfl⟩
  intro p hp
  rw [announceSubFrame, List.mem_append] at hp
  cases hremoves : removesLlcSnap pData length8023 with
  | true =>
    have hcover : 8 ≤ (payloadSizeOf pData).toNat := hcovers hremoves
    rw [convertTo8023_of_removes hremoves] at hp
    dsimp only at hp
    have hsize : (payloadSizeOf pData - UInt16.ofNat length8021H).toNat =
        (payloadSizeOf pData).toNat - 8 := by
      rw [UInt16.toNat_sub_of_le _ _ hcover, h8.2]
    rcases hp with hp | hp
    · split_ifs at hp with hcond
      · rw [List.mem_singleton.1 hp]
        rw [Passed.Sound, hsize]
        omega
      · exact absurd hp List.not_mem_nil
    · split_ifs at hp with hclone hrem
      · rw [List.mem_singleton.1 hp]
        rw [Passed.Sound, UInt16.toNat_add, hsize, h14.2]
        omega
      · exact absurd rfl hrem
      · exact absurd hp List.not_mem_nil
  | false =>
    rw [convertTo8023_of_not_removes hremoves] at hp
    dsimp only at hp
    rcases hp with hp | hp
    · split_ifs at hp with hcond
      · rw [List.mem_singleton.1 hp]
        rw [Passed.Sound]
        omega
      · exact absurd hp List.not_mem_nil
    · split_ifs at hp with hclone hrem
      · exact hrem.elim
      · rw [List.mem_singleton.1 hp]
        refine ⟨by omega, by omega, ?_⟩
        intro hremoved
        exact absurd hremoved Bool.false_ne_true
      · exact absurd hp List.not_mem_nil

/-- It leaves the memory behind it as it is. -/
theorem drop_announceSubFrame (hpayload : payloadSizeOf pData ≤ 1518)
    (hcovers : SubFrame.CoversLlcSnap ⟨off, pData⟩) :
    (announceSubFrame allocs off pData (payloadSizeOf pData)).2.drop (alignedSizeOf pData).toNat =
      pData.drop (alignedSizeOf pData).toNat := by
  have hle : (payloadSizeOf pData).toNat ≤ 1518 := hpayload
  have haligned := toNat_alignedSizeOf hpayload
  rw [announceSubFrame]
  cases hremoves : removesLlcSnap pData length8023 with
  | true =>
    have hcover : 8 ≤ (payloadSizeOf pData).toNat := hcovers hremoves
    rw [convertTo8023_of_removes hremoves]
    refine Mem.drop_write ?_
    rw [length_make8023Header _ _ _ (Mem.length_read _ _ _)]
    simp only [if_true, length8023, length8021H]
    omega
  | false =>
    rw [convertTo8023_of_not_removes hremoves]
    rfl

/-- **One that does not is announced with a size no Ethernet header fits in.** -/
theorem not_sound_announceSubFrame {lo hi : Nat} (hclone : allocs.clone = true)
    (hcovers : ¬ SubFrame.CoversLlcSnap ⟨off, pData⟩) :
    ∃ p ∈ (announceSubFrame allocs off pData (payloadSizeOf pData)).1, ¬ p.Sound lo hi := by
  have hshort : removesLlcSnap pData length8023 = true ∧ (payloadSizeOf pData).toNat < 8 := by
    simpa [SubFrame.CoversLlcSnap, length8021H] using hcovers
  have h14 : length8023 = 14 ∧ (UInt16.ofNat length8023).toNat = 14 := ⟨rfl, rfl⟩
  have h8 : (UInt16.ofNat length8021H).toNat = 8 := rfl
  rw [announceSubFrame, convertTo8023_of_removes hshort.1, if_pos hclone]
  refine ⟨_, List.mem_append_right _ (List.mem_singleton.2 rfl), ?_⟩
  rintro ⟨-, -, hsize⟩
  have hle := hsize rfl
  rw [if_pos rfl, UInt16.toNat_add, UInt16.toNat_sub, h14.2, h8, h14.1] at hle
  omega

end

/-! ## 5. The whole buffer -/

theorem Passed.Sound.mono {lo lo' hi : Nat} {p : Passed} (h : p.Sound lo' hi) (hlo : lo ≤ lo') :
    p.Sound lo hi := by
  cases p with
  | eapol pPayload payloadSize octets =>
    exact ⟨Nat.le_trans hlo h.1, h.2⟩
  | packet pPayload payloadSize removed octets =>
    exact ⟨Nat.le_trans hlo h.1, h.2⟩

/-- **What the loop can do**: nothing, one subframe and then stop, or one subframe and go on; and
the walk does the same. -/
theorem deaggregateAmsduAnnounce_cases (allocs : Nat → Allocs) (nMsdu off : Nat)
    (pData : List UInt8) (dataSize : Nat) :
    let res := announceSubFrame (allocs nMsdu) off pData (payloadSizeOf pData)
    let size := (alignedSizeOf pData).toNat
    ((deaggregateAmsduAnnounce allocs nMsdu off pData dataSize).passed = [] ∧
      reached off pData dataSize = []) ∨
    (payloadSizeOf pData ≤ 1518 ∧ (payloadSizeOf pData).toNat + 14 ≤ dataSize ∧
      ((deaggregateAmsduAnnounce allocs nMsdu off pData dataSize).passed = res.1 ∧
          reached off pData dataSize = [⟨off, pData⟩] ∨
        32 ≤ size ∧ size < dataSize ∧
          (deaggregateAmsduAnnounce allocs nMsdu off pData dataSize).passed = res.1 ++
            (deaggregateAmsduAnnounce allocs (nMsdu + 1) (off + size) (res.2.drop size)
              (dataSize - size)).passed ∧
          reached off pData dataSize =
            ⟨off, pData⟩ :: reached (off + size) (pData.drop size) (dataSize - size))) := by
  intro res size
  rw [deaggregateAmsduAnnounce, reached]
  by_cases hlen : length8023 < dataSize
  · rw [if_pos hlen, if_pos hlen]
    by_cases hfirst : dataSize < (subFrameSizeOf pData).toNat ∨ 1518 < payloadSizeOf pData
    · rw [if_pos hfirst, if_pos hfirst]
      exact .inl ⟨rfl, rfl⟩
    · rw [if_neg hfirst, if_neg hfirst]
      rw [not_or, UInt16.not_lt] at hfirst
      refine .inr ⟨hfirst.2, ?_, ?_⟩
      · rw [← toNat_subFrameSizeOf hfirst.2]
        exact Nat.le_of_not_lt hfirst.1
      · by_cases hsize : 1528 < alignedSizeOf pData ∨ alignedSizeOf pData < 32
        · rw [dif_pos hsize, dif_pos hsize]
          exact .inl ⟨rfl, rfl⟩
        · rw [dif_neg hsize, dif_neg hsize]
          by_cases hmore : (alignedSizeOf pData).toNat < dataSize
          · rw [if_pos hmore, if_pos hmore]
            have h32 : 32 ≤ (alignedSizeOf pData).toNat := UInt16.not_lt.1 (not_or.1 hsize).2
            exact .inr ⟨h32, hmore, rfl, rfl⟩
          · rw [if_neg hmore, if_neg hmore]
            exact .inl ⟨rfl, rfl⟩
  · rw [if_neg hlen, if_neg hlen]
    exact .inl ⟨rfl, rfl⟩

/-- **If every subframe covers its LLC/SNAP header, all that is handed on is sound.** -/
theorem sound_of_coversLlcSnap {allocs : Nat → Allocs} (dataSize : Nat) :
    ∀ {nMsdu off : Nat} {pData : List UInt8},
      (∀ s ∈ reached off pData dataSize, s.CoversLlcSnap) →
      ∀ p ∈ (deaggregateAmsduAnnounce allocs nMsdu off pData dataSize).passed,
        p.Sound off (off + dataSize) := by
  induction dataSize using Nat.strong_induction_on with
  | _ dataSize ih =>
    intro nMsdu off pData hcovers p hp
    rcases deaggregateAmsduAnnounce_cases allocs nMsdu off pData dataSize with
      ⟨hpassed, -⟩ | ⟨hpayload, hlen, ⟨hpassed, hreached⟩ | ⟨h32, hmore, hpassed, hreached⟩⟩
    · rw [hpassed] at hp
      exact absurd hp List.not_mem_nil
    · rw [hpassed] at hp
      rw [hreached] at hcovers
      exact sound_announceSubFrame hpayload (by omega) (hcovers _ List.mem_cons_self) p hp
    · rw [hpassed] at hp
      rw [hreached] at hcovers
      have hfirst := hcovers _ List.mem_cons_self
      rcases List.mem_append.1 hp with hp | hp
      · exact sound_announceSubFrame hpayload (by omega) hfirst p hp
      · rw [drop_announceSubFrame hpayload hfirst] at hp
        have hrest := ih _ (by omega) (fun s hs => hcovers s (List.mem_cons_of_mem _ hs)) p hp
        rw [Nat.add_assoc, Nat.add_sub_of_le (Nat.le_of_lt hmore)] at hrest
        exact hrest.mono (Nat.le_add_right _ _)

/-- **If one does not, there is an announcement that is not.** -/
theorem coversLlcSnap_of_sound {allocs : Nat → Allocs} (hclone : ∀ n, (allocs n).clone = true)
    {lo hi : Nat} (dataSize : Nat) :
    ∀ {nMsdu off : Nat} {pData : List UInt8},
      (∀ p ∈ (deaggregateAmsduAnnounce allocs nMsdu off pData dataSize).passed, p.Sound lo hi) →
      ∀ s ∈ reached off pData dataSize, s.CoversLlcSnap := by
  induction dataSize using Nat.strong_induction_on with
  | _ dataSize ih =>
    intro nMsdu off pData hsound s hs
    have hhead : (∀ p ∈ (announceSubFrame (allocs nMsdu) off pData (payloadSizeOf pData)).1,
        p.Sound lo hi) → SubFrame.CoversLlcSnap ⟨off, pData⟩ := by
      intro h
      by_contra hnot
      obtain ⟨p, hp, hbad⟩ := not_sound_announceSubFrame (hclone nMsdu) hnot
      exact hbad (h p hp)
    rcases deaggregateAmsduAnnounce_cases allocs nMsdu off pData dataSize with
      ⟨-, hreached⟩ | ⟨hpayload, hlen, ⟨hpassed, hreached⟩ | ⟨h32, hmore, hpassed, hreached⟩⟩
    · rw [hreached] at hs
      exact absurd hs List.not_mem_nil
    · rw [hpassed] at hsound
      rw [hreached] at hs
      rw [List.mem_singleton.1 hs]
      exact hhead hsound
    · rw [hpassed] at hsound
      rw [hreached] at hs
      have hfirst := hhead fun p hp => hsound p (List.mem_append_left _ hp)
      rcases List.mem_cons.1 hs with hs | hs
      · rw [hs]
        exact hfirst
      · rw [drop_announceSubFrame hpayload hfirst] at hsound
        exact ih _ (by omega) (fun p hp => hsound p (List.mem_append_right _ hp)) s hs

/-- **All that is handed on of a buffer is sound, however the allocations go, exactly if every
subframe the loop comes to covers the LLC/SNAP header that is taken off it.** -/
theorem deaggregateAmsduAnnounce_sound_iff (pData : List UInt8) (dataSize : Nat) :
    (∀ allocs, ∀ p ∈ (deaggregateAmsduAnnounce allocs 0 0 pData dataSize).passed,
      p.Sound 0 dataSize) ↔
    ∀ s ∈ reached 0 pData dataSize, s.CoversLlcSnap := by
  constructor
  · intro h
    exact coversLlcSnap_of_sound (fun _ => rfl) dataSize (h fun _ => ⟨true, true⟩)
  · intro h allocs p hp
    have hsound := sound_of_coversLlcSnap dataSize h p hp
    rwa [Nat.zero_add] at hsound

namespace Example

/-- A buffer of 22 octets; its subframe says that its payload has 2, and in them and behind them
are an LLC/SNAP header and the EtherType of EAPOL. -/
def shortSubFrame : List UInt8 :=
  List.replicate 12 1 ++ [0, 2] ++ snap8021H ++ eapol

/-- The copy for the supplicant has 65530 octets, and the frame announced 8. -/
theorem not_sound_shortSubFrame :
    ¬ ∀ allocs, ∀ p ∈ (deaggregateAmsduAnnounce allocs 0 0 shortSubFrame 22).passed,
      p.Sound 0 22 := by
  intro h
  have hreached : (⟨0, shortSubFrame⟩ : SubFrame) ∈ reached 0 shortSubFrame 22 := by
    rw [reached, if_pos (by decide), if_neg (by decide), dif_pos (by decide)]
    exact List.mem_singleton_self _
  have hcovers := coversLlcSnap_of_sound (fun _ => rfl) 22 (h fun _ => ⟨true, true⟩) _ hreached
  exact absurd (hcovers (by decide)) (by decide)

end Example

end Mt7601.Data
