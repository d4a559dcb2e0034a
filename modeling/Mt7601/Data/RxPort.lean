/-
# What goes up before the port is secured, and in the clear

With encryption in use, an Ethernet frame that goes up is to be EAPOL, or made of a frame that came
protected while the port was secured (`Indication.Allowed`). `STARxDataFrameAnnounce` tests one half
of it for unicast frames: it drops what is in the clear before the port is secured. It lets through
what is in the clear afterwards and what is protected before, a frame that looks like EAPOL to
`RTMPCheckWPAframe` is not tested at all, and neither is a group-addressed one.

`Route.Guarded` names the frames for which that does not matter, branch by branch. A frame that
waits in a reorder list goes up later, so the settings must not change under it either.
-/
import Mt7601.Data.RxAnnounce
import Mt7601.Ba.Holding

namespace Mt7601.Data

open Header
open Mt7601.Wpa (WepStatus)

/-! ## 1. What is to go up -/

/-- The EtherType of an Ethernet frame is that of EAPOL. -/
def IsEapol (octets : List UInt8) : Prop := Mem.read octets 12 2 = eapol

instance (octets : List UInt8) : Decidable (IsEapol octets) :=
  inferInstanceAs (Decidable (_ = _))

/-- **What may go up** with encryption in use. -/
def Indication.Allowed (i : Indication) : Prop :=
  i.wepStatus ≠ .wepDisabled → IsEapol i.octets ∨ (i.clear = false ∧ i.portSecured = true)

/-! ## 2. The condition -/

/-- The frame came protected and the port is secured, or there is no encryption. -/
def RxPort.Lets (port : RxPort) (f : RxFrame) : Prop :=
  port.wepStatus ≠ .wepDisabled → f.clear = false ∧ port.portSecured = true

/-- EAPOL behind an LLC/SNAP header. -/
def RxFrame.CarriesEapol (f : RxFrame) : Prop :=
  removesLlcSnap f.pHeader f.pData = true ∧ Mem.read f.pHeader (f.pData + 6) 2 = eapol

/-- The frame a subframe becomes is EAPOL: behind an LLC/SNAP header, which is taken off, or in the
place of the type in its payload, which goes up as it is. -/
def SubFrame.CarriesEapol (s : SubFrame) : Prop :=
  if removesLlcSnap s.pData length8023 then
    Mem.read s.pData 20 2 = eapol ∧ length8021H ≤ (payloadSizeOf s.pData).toNat
  else Mem.read s.pData 26 2 = eapol ∧ length8023 ≤ (payloadSizeOf s.pData).toNat

/-- Every subframe the loop comes to is. -/
def AmsduCarriesEapol (pData : List UInt8) (dataSize : UInt16) : Prop :=
  ∀ s ∈ reached 0 pData dataSize.toNat, s.CarriesEapol

/-- Both frames of an A-Ralink are. -/
def RxFrame.RalinkCarriesEapol (f : RxFrame) : Prop :=
  f.skipMsdu2Size.CarriesEapol ∧ Mem.read f.pHeader (secondMsdu f + 12) 2 = eapol

def RxFrame.LegacyGuarded (port : RxPort) (f : RxFrame) : Prop :=
  f.to8023.dataSize.toNat ≤ Ba.maxRxPktLen → port.Lets f ∨ f.CarriesEapol

def RxFrame.AmsduGuarded (port : RxPort) (f : RxFrame) : Prop :=
  port.Lets f ∨ AmsduCarriesEapol (f.pHeader.drop f.pData) f.dataSize

def RxFrame.RalinkGuarded (port : RxPort) (f : RxFrame) : Prop :=
  msdu2Size f.pHeader f.pData ≤ 1536 ∧ msdu2Size f.pHeader f.pData < f.dataSize → f.duplicated →
    port.Lets f ∨ f.RalinkCarriesEapol

/-- A frame taken for EAPOL goes up to a supplicant only; an EAP-SUCCESS opens the port first. -/
def RxFrame.EapolGuarded (port : RxPort) (f : RxFrame) : Prop :=
  port.wpaSupplicantUp = true → f.LegacyGuarded (RxState.eapSuccess port f)

/-- The frame goes up past the reorder list. -/
def RxFrame.PastGuarded (port : RxPort) (f : RxFrame) : Prop :=
  if f.flags.amsdu then f.AmsduGuarded port
  else if f.eap then f.EapolGuarded port
  else f.LegacyGuarded port

/-- The frame goes up out of the reorder list. -/
def RxFrame.ReorderGuarded (port : RxPort) (f : RxFrame) : Prop :=
  port.Lets f ∨
    if f.flags.amsdu then AmsduCarriesEapol (f.pHeader.drop f.to8023.pData) f.to8023.dataSize
    else f.CarriesEapol

/-- **The condition on a frame**, by the branch it takes. -/
def Route.Guarded (port : RxPort) : Route → Prop
  | .release => True
  | .legacy f => f.LegacyGuarded port
  | .amsdu f => f.AmsduGuarded port
  | .aralink f => f.RalinkGuarded port
  | .ampdu f =>
    (f.flags.amsdu = true ∨ f.dataSize.toNat ≤ Ba.maxRxPktLen) →
      f.rxWi.wirelessCliId < Ba.maxLenOfMacTable →
        f.PastGuarded port ∧ (f.eap = false → f.ReorderGuarded port)
  | .eapol f => f.EapolGuarded port

/-- **The condition on a step**: of a frame, that its branch is guarded; of a change of the settings,
that it is made when no frame waits that the new ones would not let up. -/
def RxState.Guarded (s : RxState) : RxOp → Prop
  | .receive a => (staHandleRxDataFrame s.station s.port s.reassembly a).2.Guarded s.port
  | .session _ _ => True
  | .settings _ port =>
    ∀ i, ∀ m ∈ (s.ba.baRecEntry i).list.next, (s.held m.pPacket).ReorderGuarded port

/-! ## 3. The frames that are made -/

section

variable {f : RxFrame} {port : RxPort} {mem pData : List UInt8}

/-- The type field of an Ethernet header. -/
theorem isEapol_header {da sa type rest : List UInt8} (hda : da.length = 6) (hsa : sa.length = 6)
    (htype : type = eapol) : IsEapol (da ++ sa ++ type ++ rest) := by
  rw [IsEapol, htype]
  refine Mem.read_middle (da ++ sa) rest ?_ ?_ rfl
  · rw [List.append_assoc]
  · rw [List.length_append, hda, hsa]

theorem isEapol_packet (h : f.CarriesEapol) : IsEapol (f.to8023.packet f.pHeader) := by
  rw [RxFrame.to8023, convertTo8023_of_removes h.1]
  exact isEapol_header (Mem.length_read _ _ _) (Mem.length_read _ _ _) h.2

theorem isEapol_legacy (h : f.CarriesEapol) : ∀ o ∈ indicateLegacyPacket f, IsEapol o := by
  intro o ho
  rw [indicateLegacyPacket] at ho
  split at ho
  · exact absurd ho List.not_mem_nil
  · rw [List.mem_singleton.1 ho]
    exact isEapol_packet h

/-- A read of a read. -/
theorem read_read {a m off n : Nat} (h : off + n ≤ m) :
    Mem.read (Mem.read mem a m) off n = Mem.read mem (a + off) n := by
  obtain ⟨k, rfl⟩ : ∃ k, m = off + (n + k) := ⟨m - off - n, by omega⟩
  refine Mem.read_middle (Mem.read mem a off) (Mem.read mem (a + off + n) k) ?_ ?_ ?_
  · rw [Mem.read_add, Mem.read_add]
  · rw [Mem.length_read]
  · rw [Mem.length_read]

/-- **The frame a subframe becomes.** -/
theorem isEapol_subFrame {allocs : Allocs} {off : Nat} (hpayload : payloadSizeOf pData ≤ 1518)
    (h : SubFrame.CarriesEapol ⟨off, pData⟩) :
    ∀ o ∈ (announceSubFrame allocs off pData (payloadSizeOf pData)).1.filterMap Passed.announced,
      IsEapol o := by
  have hle : (payloadSizeOf pData).toNat ≤ 1518 := hpayload
  have h14 : length8023 = 14 ∧ (UInt16.ofNat length8023).toNat = 14 := ⟨rfl, rfl⟩
  have h8 : length8021H = 8 ∧ (UInt16.ofNat length8021H).toNat = 8 := ⟨rfl, rfl⟩
  have hmlme : ∀ c : Prop, ∀ _ : Decidable c, ∀ p s o,
      (if c then [Passed.eapol p s o] else []).filterMap Passed.announced = [] := by
    intro c _ p s o
    split <;> rfl
  intro o ho
  rw [SubFrame.CarriesEapol] at h
  rw [announceSubFrame] at ho
  dsimp only at h ho
  rw [List.filterMap_append, hmlme, List.nil_append] at ho
  cases hremoves : removesLlcSnap pData length8023 with
  | true =>
    rw [if_pos hremoves] at h
    rw [convertTo8023_of_removes hremoves] at ho
    split at ho
    · have hsize : (payloadSizeOf pData - UInt16.ofNat length8021H +
          UInt16.ofNat length8023).toNat = (payloadSizeOf pData).toNat + 6 := by
        rw [UInt16.toNat_add, UInt16.toNat_sub_of_le _ _ h.2, h8.2, h14.2]
        omega
      simp only [if_true, List.filterMap_cons, Passed.announced, List.filterMap_nil,
        List.mem_singleton] at ho
      rw [ho, IsEapol, hsize, read_read (by omega)]
      -- the header that was written there ends with the type
      have hback := Mem.read_write pData
        (make8023Header pData 0 macAddrLen (Mem.read pData (length8023 + 6) 2))
        (length8023 + length8021H - length8023)
      rw [length_make8023Header _ _ _ (Mem.length_read _ _ _)] at hback
      have hheader : IsEapol
          (make8023Header pData 0 macAddrLen (Mem.read pData (length8023 + 6) 2) ++ []) :=
        isEapol_header (Mem.length_read _ _ _) (Mem.length_read _ _ _) h.1
      rw [List.append_nil, IsEapol, ← hback, read_read (by omega)] at hheader
      exact hheader
    · exact absurd ho List.not_mem_nil
  | false =>
    rw [hremoves, if_neg Bool.false_ne_true] at h
    rw [convertTo8023_of_not_removes hremoves] at ho
    split at ho
    · simp only [Bool.false_eq_true, if_false, List.filterMap_cons, Passed.announced,
        List.filterMap_nil, List.mem_singleton] at ho
      rw [ho, IsEapol, read_read (by omega)]
      exact h.1
    · exact absurd ho List.not_mem_nil

/-- A subframe that is passed over has room for its LLC/SNAP header. -/
theorem coversLlcSnap_of_aligned {off : Nat} (hpayload : payloadSizeOf pData ≤ 1518)
    (h32 : 32 ≤ (alignedSizeOf pData).toNat) : SubFrame.CoversLlcSnap ⟨off, pData⟩ := by
  intro _
  rw [toNat_alignedSizeOf hpayload] at h32
  rw [length8021H]
  dsimp only
  omega

/-- **If every subframe the loop comes to is EAPOL, so is every frame that goes up.** -/
theorem isEapol_deaggregate {allocs : Nat → Allocs} (dataSize : Nat) :
    ∀ {nMsdu off : Nat} {pData : List UInt8},
      (∀ s ∈ reached off pData dataSize, s.CarriesEapol) →
      ∀ o ∈ (deaggregateAmsduAnnounce allocs nMsdu off pData dataSize).passed.filterMap
          Passed.announced, IsEapol o := by
  induction dataSize using Nat.strong_induction_on with
  | _ dataSize ih =>
    intro nMsdu off pData hcarries o ho
    rcases deaggregateAmsduAnnounce_cases allocs nMsdu off pData dataSize with
      ⟨hpassed, -⟩ | ⟨hpayload, -, ⟨hpassed, hreached⟩ | ⟨h32, hmore, hpassed, hreached⟩⟩
    · rw [hpassed] at ho
      exact absurd ho List.not_mem_nil
    · rw [hpassed] at ho
      rw [hreached] at hcarries
      exact isEapol_subFrame hpayload (hcarries _ List.mem_cons_self) o ho
    · rw [hpassed, List.filterMap_append] at ho
      rw [hreached] at hcarries
      rcases List.mem_append.1 ho with ho | ho
      · exact isEapol_subFrame hpayload (hcarries _ List.mem_cons_self) o ho
      · have hcovers : SubFrame.CoversLlcSnap ⟨off, pData⟩ := coversLlcSnap_of_aligned hpayload h32
        rw [drop_announceSubFrame hpayload hcovers] at ho
        exact ih _ (by omega) (fun s hs => hcarries s (List.mem_cons_of_mem _ hs)) o ho

theorem isEapol_amsdu {allocs : Nat → Allocs} {dataSize : UInt16}
    (h : AmsduCarriesEapol pData dataSize) : ∀ o ∈ announceAmsdu allocs pData dataSize, IsEapol o :=
  isEapol_deaggregate dataSize.toNat h

theorem isEapol_ralink (h : f.RalinkCarriesEapol) :
    ∀ o ∈ cmmRxRalinkFrameIndicate f, IsEapol o := by
  intro o ho
  rw [cmmRxRalinkFrameIndicate] at ho
  dsimp only at ho
  split at ho
  · split at ho
    · rcases List.mem_cons.1 ho with ho | ho
      · rw [ho, RxFrame.to8023, convertTo8023_of_removes h.1.1]
        exact isEapol_header (Mem.length_read _ _ _) (Mem.length_read _ _ _) h.1.2
      · rw [List.mem_singleton.1 ho, IsEapol]
        have hsplit : Mem.read f.pHeader (secondMsdu f) length8023 =
            Mem.read f.pHeader (secondMsdu f) 12 ++ Mem.read f.pHeader (secondMsdu f + 12) 2 :=
          Mem.read_add _ _ 12 2
        rw [hsplit, h.2]
        exact Mem.read_middle (Mem.read f.pHeader (secondMsdu f) 12) _ (List.append_assoc _ _ _)
          (Mem.length_read _ _ _).symm rfl
    · exact absurd ho List.not_mem_nil
  · exact absurd ho List.not_mem_nil

/-- What is guarded on its way out of the list. -/
theorem isEapol_reorder
    (h : if f.flags.amsdu then AmsduCarriesEapol (f.pHeader.drop f.to8023.pData) f.to8023.dataSize
      else f.CarriesEapol) : ∀ o ∈ announceReorderingPacket f, IsEapol o := by
  intro o ho
  rw [announceReorderingPacket] at ho
  split at ho
  · rename_i hamsdu
    rw [if_pos hamsdu] at h
    exact isEapol_amsdu h o ho
  · rename_i hamsdu
    rw [if_neg hamsdu] at h
    rw [List.mem_singleton.1 ho]
    exact isEapol_packet h

end

/-! ## 4. What is kept -/

/-- The port may have been opened since. -/
structure RxPort.Widens (port port' : RxPort) : Prop where
  settings : port' = { port with portSecured := port'.portSecured }
  secured : port.portSecured = true → port'.portSecured = true

section

variable {port port' : RxPort} {f : RxFrame}

theorem RxPort.Widens.refl : port.Widens port := ⟨rfl, id⟩

theorem RxPort.Widens.lets (h : port.Widens port') (hlets : port.Lets f) : port'.Lets f := by
  intro henc
  rw [h.settings] at henc
  obtain ⟨hclear, hsecured⟩ := hlets henc
  exact ⟨hclear, h.secured hsecured⟩

theorem widens_eapSuccess : port.Widens (RxState.eapSuccess port f) := by
  rw [RxState.eapSuccess]
  split
  · exact ⟨rfl, fun _ => rfl⟩
  · exact RxPort.Widens.refl

/-- The same frame opens the wider port too. -/
theorem RxPort.Widens.eapSuccess (h : port.Widens port') :
    (RxState.eapSuccess port f).Widens (RxState.eapSuccess port' f) := by
  have hsettings := h.settings
  by_cases hsuccess : port.ieee8021X = true ∧ port.wepStatus = .wepEnabled ∧
      wpaCheckEapCode f.pHeader f.pData f.dataSize.toNat length8021H = eapCodeSuccess
  · have hsuccess' : port'.ieee8021X = true ∧ port'.wepStatus = .wepEnabled ∧
        wpaCheckEapCode f.pHeader f.pData f.dataSize.toNat length8021H = eapCodeSuccess := by
      rw [hsettings]
      exact hsuccess
    rw [RxState.eapSuccess, RxState.eapSuccess, if_pos hsuccess, if_pos hsuccess', hsettings]
    exact RxPort.Widens.refl
  · have hsuccess' : ¬ (port'.ieee8021X = true ∧ port'.wepStatus = .wepEnabled ∧
        wpaCheckEapCode f.pHeader f.pData f.dataSize.toNat length8021H = eapCodeSuccess) := by
      rw [hsettings]
      exact hsuccess
    rw [RxState.eapSuccess, RxState.eapSuccess, if_neg hsuccess, if_neg hsuccess']
    exact h

theorem RxPort.Widens.legacy (h : port.Widens port') (hg : f.LegacyGuarded port) :
    f.LegacyGuarded port' :=
  fun hlen => (hg hlen).imp_left h.lets

theorem RxPort.Widens.past (h : port.Widens port') (hg : f.PastGuarded port) :
    f.PastGuarded port' := by
  rw [RxFrame.PastGuarded] at hg ⊢
  by_cases hamsdu : f.flags.amsdu = true
  · rw [if_pos hamsdu] at hg ⊢
    exact hg.imp_left h.lets
  · rw [if_neg hamsdu] at hg ⊢
    by_cases heap : f.eap = true
    · rw [if_pos heap] at hg ⊢
      intro hup
      rw [h.settings] at hup
      exact (h.eapSuccess (f := f)).legacy (hg hup)
    · rw [if_neg heap] at hg ⊢
      exact h.legacy hg

theorem RxPort.Widens.reorder (h : port.Widens port') (hg : f.ReorderGuarded port) :
    f.ReorderGuarded port' :=
  hg.imp_left h.lets

end

/-- **The invariant**: what went up was allowed to, and what waits may go up under the settings of
now. -/
structure RxState.Kept (s : RxState) : Prop where
  accounted : Ba.Accounted s.ba
  waiting : ∀ i, ∀ m ∈ (s.ba.baRecEntry i).list.next,
    m.pPacket < s.nextPacket ∧ (s.held m.pPacket).ReorderGuarded s.port
  indicated : ∀ i ∈ s.indicated, i.Allowed

section

variable {s : RxState} {f : RxFrame} {packets : List (List UInt8)}

/-- Frames that go up. -/
theorem RxState.Kept.indicate (h : s.Kept)
    (hup : s.port.Lets f ∨ ∀ o ∈ packets, IsEapol o) : (s.indicate f packets).Kept := by
  refine ⟨h.accounted, h.waiting, ?_⟩
  intro i hi
  rcases List.mem_append.1 hi with hi | hi
  · exact h.indicated i hi
  · obtain ⟨o, ho, rfl⟩ := List.mem_map.1 hi
    intro henc
    rcases hup with hlets | heapol
    · exact .inr (hlets henc)
    · exact .inl (heapol o ho)

/-- The port is opened. -/
theorem RxState.Kept.widen {port : RxPort} (h : s.Kept) (hwide : s.port.Widens port) :
    RxState.Kept { s with port := port } where
  accounted := h.accounted
  waiting := by
    intro i m hm
    obtain ⟨hlt, hg⟩ := h.waiting i m hm
    exact ⟨hlt, hwide.reorder hg⟩
  indicated := h.indicated

theorem RxState.Kept.legacy (h : s.Kept) (hg : f.LegacyGuarded s.port) :
    (s.indicate f (indicateLegacyPacket f)).Kept := by
  refine h.indicate ?_
  by_cases hlen : Ba.maxRxPktLen < f.to8023.dataSize.toNat
  · right
    intro o ho
    rw [indicateLegacyPacket, if_pos hlen] at ho
    exact absurd ho List.not_mem_nil
  · exact (hg (Nat.le_of_not_lt hlen)).imp_right isEapol_legacy

/-- The disposals of an operation, guarded. -/
def RxState.Disposes (s : RxState) : Ba.Disposal → Prop
  | .announce mpdu => (s.held mpdu.pPacket).ReorderGuarded s.port
  | .legacy blk => (s.held blk.pRxPacket).PastGuarded s.port
  | .release _ => True

/-- **One disposal.** -/
theorem RxState.Kept.dispose {d : Ba.Disposal} (h : s.Kept) (hd : s.Disposes d) :
    (s.dispose d).Kept ∧ (∀ d', s.Disposes d' → (s.dispose d).Disposes d') := by
  cases d with
  | announce mpdu =>
    refine ⟨?_, fun d' hd' => ?_⟩
    · rw [RxState.dispose]
      exact h.indicate (hd.imp_right isEapol_reorder)
    · cases d' <;> exact hd'
  | legacy blk =>
    have hpast : (s.held blk.pRxPacket).PastGuarded s.port := hd
    rw [RxFrame.PastGuarded] at hpast
    rw [RxState.dispose, RxState.indicateLegacyOrAmsdu]
    split
    · rename_i hamsdu
      rw [if_pos hamsdu] at hpast
      refine ⟨h.indicate (hpast.imp_right isEapol_amsdu), fun d' hd' => ?_⟩
      cases d' <;> exact hd'
    · rename_i hamsdu
      rw [if_neg hamsdu] at hpast
      split
      · rename_i heap
        rw [if_pos heap] at hpast
        split
        · -- EAPOL may open the port
          rename_i hup
          have hwide : s.port.Widens (RxState.eapSuccess s.port (s.held blk.pRxPacket)) :=
            widens_eapSuccess
          refine ⟨(h.widen hwide).legacy (hpast hup.2), fun d' hd' => ?_⟩
          cases d' with
          | announce mpdu' => exact hwide.reorder hd'
          | legacy blk' => exact hwide.past hd'
          | release p => trivial
        · exact ⟨h, fun _ hd' => hd'⟩
      · rename_i heap
        rw [if_neg heap] at hpast
        refine ⟨h.legacy hpast, fun d' hd' => ?_⟩
        cases d' <;> exact hd'
  | release p => exact ⟨h, fun _ hd' => hd'⟩

/-- All of them. -/
theorem RxState.Kept.disposals {log : List Ba.Disposal} (h : s.Kept)
    (hlog : ∀ d ∈ log, s.Disposes d) : (log.foldl RxState.dispose s).Kept := by
  induction log generalizing s with
  | nil => exact h
  | cons d log ih =>
    obtain ⟨hkept, hothers⟩ := h.dispose (hlog d List.mem_cons_self)
    exact ih hkept fun d' hd' => hothers d' (hlog d' (List.mem_cons_of_mem _ hd'))

/-- **An operation on the sessions.** -/
theorem RxState.Kept.reorder (hz : Ba.OsHz) {op : Ba.Op} (h : s.Kept)
    (hop : op.Fits (fun m => m.pPacket < s.nextPacket ∧ (s.held m.pPacket).ReorderGuarded s.port)
      fun blk => (s.held blk.pRxPacket).PastGuarded s.port) : (s.reorder hz op).Kept := by
  have hacc : Ba.Accounted { s.ba with log := [] } := ⟨h.accounted.table.log, h.accounted.outside⟩
  have hholds : Ba.Adapter.Holds
      (fun m => m.pPacket < s.nextPacket ∧ (s.held m.pPacket).ReorderGuarded s.port)
      (fun blk => (s.held blk.pRxPacket).PastGuarded s.port) { s.ba with log := [] } :=
    ⟨h.waiting, fun _ hm => absurd hm List.not_mem_nil, fun _ hm => absurd hm List.not_mem_nil⟩
  have hafter := Ba.step_holds hz hacc hholds hop
  have hstep : RxState.Kept { s with ba := Ba.step hz { s.ba with log := [] } op } :=
    ⟨(Ba.step_booked hz op hacc).accounted hacc, hafter.waiting, h.indicated⟩
  refine hstep.disposals fun d hd => ?_
  cases d with
  | announce mpdu => exact (hafter.announced mpdu hd).2
  | legacy blk => exact hafter.legacy blk hd
  | release p => trivial

theorem RxState.Kept.session (hz : Ba.OsHz) {op : Ba.Op} (h : s.Kept)
    (hother : ∀ blk now32, op ≠ .indicate blk now32) : (s.reorder hz op).Kept := by
  refine h.reorder hz ?_
  cases op with
  | indicate blk now32 => exact absurd rfl (hother blk now32)
  | _ => trivial

theorem RxPort.Widens.trans {port₁ port₂ port₃ : RxPort} (h₁ : port₁.Widens port₂)
    (h₂ : port₂.Widens port₃) : port₁.Widens port₃ where
  settings := by rw [h₂.settings, h₁.settings]
  secured := fun h => h₂.secured (h₁.secured h)

/-- A disposal changes nothing of the settings but that it may open the port. -/
theorem widens_dispose (d : Ba.Disposal) : s.port.Widens (s.dispose d).port := by
  cases d with
  | announce mpdu => exact RxPort.Widens.refl
  | legacy blk =>
    rw [RxState.dispose, RxState.indicateLegacyOrAmsdu]
    split
    · exact RxPort.Widens.refl
    · split
      · split
        · exact widens_eapSuccess
        · exact RxPort.Widens.refl
      · exact RxPort.Widens.refl
  | release p => exact RxPort.Widens.refl

theorem widens_reorder (hz : Ba.OsHz) (op : Ba.Op) : s.port.Widens (s.reorder hz op).port := by
  have hall : ∀ (log : List Ba.Disposal) (s : RxState),
      s.port.Widens (log.foldl RxState.dispose s).port := by
    intro log
    induction log with
    | nil => exact fun _ => RxPort.Widens.refl
    | cons d log ih => exact fun s => (widens_dispose d).trans (ih (s.dispose d))
  exact hall _ { s with ba := Ba.step hz { s.ba with log := [] } op }

/-- `Indicate_Legacy_Packet`, with the time-outs of its list first. -/
theorem RxState.Kept.legacyPacket (hz : Ba.OsHz) (now32 : Ba.Ulong) (h : s.Kept)
    (hg : f.LegacyGuarded s.port) : (s.legacyPacket hz f now32).Kept := by
  rw [RxState.legacyPacket]
  split
  · exact h
  · split
    · have hflushed : (s.reorder hz (.flush f.rxWi.wirelessCliId f.tid now32)).Kept :=
        h.session hz fun blk now heq => by cases heq
      exact hflushed.legacy ((widens_reorder hz _).legacy hg)
    · exact h.legacy hg

/-- A packet that is given the frame to keep. -/
theorem RxState.Kept.hold (h : s.Kept) : RxState.Kept { s with
    held := fun p => if p = s.nextPacket then f else s.held p
    nextPacket := s.nextPacket + 1 } where
  accounted := h.accounted
  waiting := by
    intro i m hm
    obtain ⟨hlt, hg⟩ := h.waiting i m hm
    refine ⟨Nat.lt_succ_of_lt hlt, ?_⟩
    dsimp only
    rw [if_neg (Nat.ne_of_lt hlt)]
    exact hg
  indicated := h.indicated

/-- The packet is released at once. -/
theorem RxState.Kept.released (hz : Ba.OsHz) {op : Ba.Op} {p : Ba.Packet} (h : s.Kept)
    (hop : Ba.step hz { s.ba with log := [] } op = { s.ba with log := [.release p] }) :
    (s.reorder hz op).Kept := by
  rw [RxState.reorder, hop]
  have hlog : RxState.Kept { s with ba := { s.ba with log := [.release p] } } :=
    ⟨⟨h.accounted.table.log, h.accounted.outside⟩, h.waiting, h.indicated⟩
  refine hlog.disposals fun d hd => ?_
  rw [List.mem_singleton.1 hd]
  trivial

/-- **`Indicate_AMPDU_Packet`**: what is not released at once is guarded wherever it goes. -/
theorem RxState.Kept.ampduPacket (hz : Ba.OsHz) (now32 : Ba.Ulong) (h : s.Kept)
    (hg : (Route.ampdu f).Guarded s.port) : (s.ampduPacket hz f now32).Kept := by
  have hhold := h.hold (f := f)
  rw [RxState.ampduPacket]
  by_cases hlen : f.flags.amsdu = true ∨ f.dataSize.toNat ≤ Ba.maxRxPktLen
  · by_cases hwcid : f.rxWi.wirelessCliId < Ba.maxLenOfMacTable
    · obtain ⟨hpast, hreorder⟩ := hg hlen hwcid
      refine hhold.reorder hz ⟨fun heap => ⟨Nat.lt_succ_self _, ?_⟩, ?_⟩
      · dsimp only [RxFrame.toBlk, Ba.RxBlk.mpdu]
        rw [if_pos rfl]
        exact hreorder heap
      · dsimp only [RxFrame.toBlk]
        rw [if_pos rfl]
        exact hpast
    · refine hhold.released hz (p := s.nextPacket) ?_
      rw [Ba.step, Ba.indicateAmpduPacket]
      split
      · rfl
      · exact if_neg hwcid
  · rw [not_or, Bool.not_eq_true, Nat.not_le] at hlen
    refine hhold.released hz (p := s.nextPacket) ?_
    rw [Ba.step, Ba.indicateAmpduPacket, if_pos]
    · rfl
    · exact ⟨by rw [RxFrame.toBlk, hlen.1]; rfl, hlen.2⟩

/-- **Wherever a guarded frame is handed to.** -/
theorem RxState.Kept.announce (hz : Ba.OsHz) (now32 : Ba.Ulong) {route : Route} (h : s.Kept)
    (hg : route.Guarded s.port) : (s.announce hz now32 route).Kept := by
  cases route with
  | release => exact h
  | legacy f => exact h.legacyPacket hz now32 hg
  | amsdu f => exact h.indicate (hg.imp_right isEapol_amsdu)
  | aralink f =>
    have hg : f.RalinkGuarded s.port := hg
    rw [RxState.announce]
    refine h.indicate ?_
    by_cases hsize : msdu2Size f.pHeader f.pData ≤ 1536 ∧ msdu2Size f.pHeader f.pData < f.dataSize
    · by_cases hdup : f.duplicated = true
      · exact (hg hsize hdup).imp_right isEapol_ralink
      · right
        intro o ho
        rw [cmmRxRalinkFrameIndicate] at ho
        dsimp only at ho
        rw [if_pos hsize, if_neg hdup] at ho
        exact absurd ho List.not_mem_nil
    · right
      intro o ho
      rw [cmmRxRalinkFrameIndicate] at ho
      dsimp only at ho
      rw [if_neg hsize] at ho
      exact absurd ho List.not_mem_nil
  | ampdu f => exact h.ampduPacket hz now32 hg
  | eapol f =>
    rw [RxState.announce]
    split
    · rename_i hup
      exact (h.widen widens_eapSuccess).legacyPacket hz now32 (hg hup)
    · exact h

/-- **One step.** -/
theorem RxState.Kept.step (hz : Ba.OsHz) {op : RxOp} (h : s.Kept) (hg : s.Guarded op) :
    (s.step hz op).Kept := by
  cases op with
  | receive a =>
    have hbuf : RxState.Kept { s with
        reassembly := (staHandleRxDataFrame s.station s.port s.reassembly a).1 } :=
      ⟨h.accounted, h.waiting, h.indicated⟩
    exact hbuf.announce hz a.now32 hg
  | session op hother => exact h.session hz hother
  | settings station port =>
    refine ⟨h.accounted, fun i m hm => ⟨(h.waiting i m hm).1, hg i m hm⟩, h.indicated⟩

end

theorem RxState.Kept.start (station : RxStation) (port : RxPort) (mem : List UInt8)
    (freelist : Nat) (held : Ba.Packet → RxFrame) :
    (RxState.start station port mem freelist held).Kept where
  accounted := Ba.Accounted.init freelist
  waiting := fun _ _ hm => absurd hm List.not_mem_nil
  indicated := fun _ hi => absurd hi List.not_mem_nil

namespace Example

/-- A station in a BSS. -/
def associated : RxStation where
  bssInfra := true
  mlmeAuxBssid := List.replicate 6 1
  bssid := List.replicate 6 1
  currentAddress := List.replicate 6 2
  macTableLookup := fun _ => true
  aggregationInUsed := false
  monitorOn := false
  ateOn := false
  sharedKeyAlg := fun _ => .aes
  fragSequence := 0

/-- AES, and the port as it is before and after the handshake. -/
def aesPort (portSecured : Bool) : RxPort where
  wepStatus := .encryption3Enabled
  portSecured := portSecured
  mediaConnected := true
  bDisableReordering := true
  wpaSupplicantUp := false
  ieee8021X := false
  entryWepStatus := fun _ => .encryption3Enabled

/-- A frame of the access point with 4 octets of IPv4. -/
def dataFrame (flags : UInt8) (da : List UInt8) (bcast : Bool) : ReceivedFrame where
  pHeader := [0x08, flags, 0, 0] ++ da ++ List.replicate 6 1 ++ List.replicate 6 3 ++ [0, 0] ++
    snap8021H ++ [0x08, 0x00] ++ [1, 2, 3, 4]
  rxWi := ⟨1, 0, 36, 0⟩
  rxInfo := ⟨false, ! bcast, false, bcast, true, false, 0, false, false, true⟩
  tid := 0
  softDecrypted := none
  pNewFragPacket := none
  micOk := true
  allocs := fun _ => ⟨true, true⟩
  duplicated := true
  now32 := 0

def heldNothing (_ : Ba.Packet) : RxFrame where
  toRxBlk := ⟨[], 0, 0⟩
  flags := ⟨false, false, false, false, false, false, false⟩
  userPriority := 0
  rxInfo := (dataFrame 0 [] false).rxInfo
  rxWi := (dataFrame 0 [] false).rxWi
  eap := false
  tid := 0
  allocs := fun _ => ⟨true, true⟩
  duplicated := true
  clear := false

def tick : Ba.OsHz := ⟨100, Ba.OsHz.hundred_le⟩

def afterHandshake : List RxOp := [.receive (dataFrame 0x42 (List.replicate 6 2) false)]

end Example

end Mt7601.Data
