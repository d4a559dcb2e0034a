/-
# WPS messages in several EAP frames: the receiver

`WpsSmProcess` of `common/wsc.c` and `WscCheckWSCHeader` of `include/wsc.h`. A control block has one
buffer for the fragments of a message. A frame of WSC data is taken behind what the buffer holds, as
long as it fits; a frame with the more-fragments flag is acknowledged, and one without it has the
buffer passed on to the WSC state machine and emptied.

The lengths are an `ULONG`, and taking the headers off may make them wrap; what then happens to the
buffer is not followed further than that the copy is outside.
-/
import Mt7601.Lib.Octets
import Mt7601.Lib.Run
import Mathlib.Data.List.Infix

namespace Mt7601.Wsc

/-! ## 1. Frames -/

/-- `MGMT_DMA_BUFFER_SIZE` -/
def mgmtDmaBufferSize : Nat := 1600

/-- `LENGTH_802_11 + LENGTH_802_1_H`, and `sizeof` of `IEEE8021X_FRAME`, `EAP_FRAME` and
`WSC_FRAME`. -/
def lenLlcHdr : Nat := 24 + 8
def lenIeee8021xFrame : Nat := 4
def lenEapFrame : Nat := 5
def lenWscFrame : Nat := 9

/-- `HeaderLen` -/
def headerLen : Nat := lenLlcHdr + lenIeee8021xFrame + lenEapFrame

def eapCodeReq : UInt8 := 0x01
def eapCodeRsp : UInt8 := 0x02
def eapCodeFail : UInt8 := 0x04
def eapTypeId : UInt8 := 0x01
def eapTypeWsc : UInt8 := 0xfe

def wscOpcodeStart : UInt8 := 0x01
def wscOpcodeNack : UInt8 := 0x03
def wscOpcodeMsg : UInt8 := 0x04
def wscOpcodeFragAck : UInt8 := 0x06

/-- `WSC_MSG_FLAG_MF`, `WSC_MSG_FLAG_LF` -/
def wscMsgFlagMf : UInt8 := 0x01
def wscMsgFlagLf : UInt8 := 0x02

/-- `WSC_SMI` and `WSC_VENDOR_TYPE`, as they stand in a frame. -/
def wscSmi : List UInt8 := [0x00, 0x37, 0x2a]
def wscVendorType : List UInt8 := [0, 0, 0, 1]

/-- `WSC_EAPOL_UPNP_MSG`, `WSC_EAPOL_START_MSG`, `WSC_EAPOL_PACKET_MSG` -/
inductive WscMsgType
  | eapolUpnpMsg
  | eapolStartMsg
  | eapolPacketMsg
  | unknown
deriving DecidableEq, Repr

/-- `MLME_QUEUE_ELEM`: what was received is no longer than `Msg`, and older octets are behind it. -/
structure WscElem where
  msgType : WscMsgType
  msg : List UInt8
  msgLen : Nat
  room : msg.length = mgmtDmaBufferSize
  fits : msgLen ≤ mgmtDmaBufferSize

namespace WscElem

variable (e : WscElem)

/-- `pHeader->Addr1`, `pHeader->Addr2` -/
def addr1 : List UInt8 := Mem.read e.msg 4 6
def addr2 : List UInt8 := Mem.read e.msg 10 6

/-- `pEapFrame->Code`, `Id`, `Type` -/
def eapCode : UInt8 := e.msg.getD (lenLlcHdr + lenIeee8021xFrame) 0
def eapId : UInt8 := e.msg.getD (lenLlcHdr + lenIeee8021xFrame + 1) 0
def eapType : UInt8 := e.msg.getD (lenLlcHdr + lenIeee8021xFrame + 4) 0

/-- `pWsc->OpCode`, `pWsc->Flags` -/
def opCode : UInt8 := e.msg.getD (headerLen + 7) 0
def flags : UInt8 := e.msg.getD (headerLen + 8) 0

/-- `WscCheckWSCHeader` -/
def wscCheckWscHeader : Bool :=
  Mem.read e.msg headerLen 3 = wscSmi ∧ Mem.read e.msg (headerLen + 3) 4 = wscVendorType

/-- The flags of a frame of WSC data. -/
def mf : Bool := e.flags &&& wscMsgFlagMf ≠ 0
def lf : Bool := e.flags &&& wscMsgFlagLf ≠ 0

/-- The octets of the WSC header, with those of the total length. -/
def wscHdrLen : Nat := if e.lf then lenWscFrame + 2 else lenWscFrame

/-- `strstr(pData, "SimpleConfig")` -/
def saysSimpleConfig : Bool :=
  [0x53, 0x69, 0x6d, 0x70, 0x6c, 0x65, 0x43, 0x6f, 0x6e, 0x66, 0x69, 0x67] <:+:
    (e.msg.drop headerLen).takeWhile (· ≠ 0)

end WscElem

/-- `AP_MODE`, `STA_MODE` -/
inductive CurOpMode
  | ap
  | sta
deriving DecidableEq, Repr

/-- The entry `MacTableLookup` finds for the transmitter: its interface, `IS_ENTRY_CLIENT` and
`IS_ENTRY_APCLI`. -/
structure WpsEntry where
  apidx : Nat
  client : Bool
  apCli : Bool
deriving DecidableEq

/-- The control blocks. -/
inductive CtrlId
  | mbssid (apidx : Nat)
  | apCli (apidx : Nat)
  | sta
deriving DecidableEq

/-- `pWpsCtrl` -/
def wpsCtrl (mode : CurOpMode) (entry : Option WpsEntry) : CtrlId :=
  match mode, entry with
  | .sta, _ => .sta
  | .ap, some entry => if entry.apCli then .apCli entry.apidx else .mbssid entry.apidx
  | .ap, none => .mbssid 0

/-! ## 2. The buffer -/

/-- `pWscRxBuf` and `WscRxBufLen`, and `lastId`. -/
structure WscRx where
  rxBuf : List UInt8 := List.replicate mgmtDmaBufferSize 0
  rxBufLen : Nat := 0
  lastId : UInt8 := 1

/-- What `WpsSmProcess` does outside the buffer. -/
inductive WpsEvent
  /-- `StateMachinePerformAction` on an element whose `Msg` is an address and these octets. -/
  | action (addr data : List UInt8)
  /-- The same, on a message put together from fragments. -/
  | message (addr data : List UInt8)
  /-- `WscSendEapFragAck` -/
  | fragAck
  /-- `EntryAddr` is cleared and `EapolTimer` cancelled. -/
  | cancelEapolTimer
  /-- `MsgLen` wraps. -/
  | underflow
  /-- A copy outside a buffer. -/
  | outside
deriving DecidableEq

/-- `a - b` of an `ULONG`. -/
def ulongSub (a b : Nat) : Nat := (a + 2 ^ 64 - b) % 2 ^ 64

/-- The copy of a frame's data, `msgLen` octets from offset `pData` of the element, behind what the
buffer holds. The sum that is compared is an `ULONG`. -/
def takeData (rx : WscRx) (e : WscElem) (pData msgLen : Nat) : WscRx × List WpsEvent :=
  if (rx.rxBufLen + msgLen) % 2 ^ 64 < mgmtDmaBufferSize - 6 then
    if rx.rxBufLen + msgLen ≤ mgmtDmaBufferSize then
      ({ rx with
          rxBuf := Mem.write rx.rxBuf rx.rxBufLen (Mem.read e.msg pData msgLen)
          rxBufLen := rx.rxBufLen + msgLen }, [])
    else ({ rx with rxBufLen := (rx.rxBufLen + msgLen) % 2 ^ 64 }, [.outside])
  else (rx, [])

/-- A frame of WSC data, `msgLen` the length behind the EAP header. -/
def wscData (rx : WscRx) (e : WscElem) (msgLen : Nat) : WscRx × List WpsEvent :=
  let under := if msgLen < e.wscHdrLen then [WpsEvent.underflow] else []
  let taken := takeData rx e (headerLen + e.wscHdrLen) (ulongSub msgLen e.wscHdrLen)
  let rx := taken.1
  if e.mf then (rx, under ++ taken.2 ++ [.fragAck])
  else
    let back := if 6 + rx.rxBufLen ≤ mgmtDmaBufferSize then [] else [WpsEvent.outside]
    ({ rx with rxBuf := List.replicate mgmtDmaBufferSize 0, rxBufLen := 0 },
      under ++ taken.2 ++ back ++ [.message e.addr2 (Mem.read rx.rxBuf 0 rx.rxBufLen)])

/-- The texts that stand for messages without data. -/
def eapFailText : List UInt8 := [0x45, 0x41, 0x50, 0x5f, 0x46, 0x41, 0x49, 0x4c]
def helloText : List UInt8 := [0x68, 0x65, 0x6c, 0x6c, 0x6f]
def wscFragAckText : List UInt8 :=
  [0x57, 0x53, 0x43, 0x5f, 0x46, 0x52, 0x41, 0x47, 0x5f, 0x41, 0x43, 0x4b]
def wscStartText : List UInt8 := [0x57, 0x53, 0x43, 0x5f, 0x53, 0x54, 0x41, 0x52, 0x54]

/-- An EAPOL packet of an entry. -/
def eapolPacket (rx : WscRx) (e : WscElem) (entry : WpsEntry) : WscRx × List WpsEvent :=
  if e.eapCode = eapCodeFail then (rx, [.action e.addr2 eapFailText])
  else if e.eapCode = eapCodeReq ∧ e.eapType = eapTypeId then
    ({ rx with lastId := e.eapId }, [.action e.addr2 helloText])
  else if e.eapCode = eapCodeReq ∧ e.eapType = eapTypeWsc then
    if e.msgLen ≤ headerLen then (rx, [])
    else
      let rx := { rx with lastId := e.eapId }
      if e.wscCheckWscHeader then
        if e.opCode = wscOpcodeFragAck then (rx, [.action e.addr2 wscFragAckText])
        else if e.opCode = wscOpcodeStart then (rx, [.action e.addr2 wscStartText])
        else wscData rx e (e.msgLen - headerLen)
      else (rx, [])
  else if e.msgLen ≤ headerLen then (rx, [])
  else if entry.client ∧ e.eapCode = eapCodeRsp ∧ e.eapType = eapTypeId then
    if e.saysSimpleConfig then
      (rx, [.action e.addr2 (Mem.read e.msg headerLen (e.msgLen - headerLen))])
    else (rx, [.cancelEapolTimer])
  else if e.wscCheckWscHeader then
    if e.opCode = wscOpcodeFragAck then (rx, [.action e.addr2 wscFragAckText])
    else wscData rx e (e.msgLen - headerLen)
  else (rx, [])

/-- `WpsSmProcess`, on the buffer of the control block it works on; `entry` is what `MacTableLookup`
finds. -/
def wpsSmProcess (rx : WscRx) (e : WscElem) (entry : Option WpsEntry) : WscRx × List WpsEvent :=
  match e.msgType with
  | .eapolUpnpMsg =>
    if headerLen < e.msgLen then
      (rx, [.action e.addr1 (Mem.read e.msg headerLen (e.msgLen - headerLen))])
    else (rx, [])
  | .eapolStartMsg => (rx, [.action (Mem.read e.msg 0 6) (Mem.read e.msg 6 (e.msgLen - 6))])
  | .eapolPacketMsg =>
    match entry with
    | some entry => eapolPacket rx e entry
    | none => (rx, [])
  | .unknown => (rx, [])

/-! ## 3. What a frame does -/

/-- The frame gets to the buffer: an EAPOL packet of an entry with a WSC header, which is no
identity, failure, start or acknowledgement. -/
def CarriesData (e : WscElem) (entry : Option WpsEntry) : Prop :=
  e.msgType = .eapolPacketMsg ∧ headerLen < e.msgLen ∧ e.wscCheckWscHeader = true ∧
    e.opCode ≠ wscOpcodeFragAck ∧ e.eapCode ≠ eapCodeFail ∧
    ¬ (e.eapCode = eapCodeReq ∧ e.eapType = eapTypeId) ∧
    ¬ (e.eapCode = eapCodeReq ∧ e.eapType = eapTypeWsc ∧ e.opCode = wscOpcodeStart) ∧
    entry ≠ none ∧
    ¬ (entry.map WpsEntry.client = some true ∧ e.eapCode = eapCodeRsp ∧ e.eapType = eapTypeId)

instance (e : WscElem) (entry : Option WpsEntry) : Decidable (CarriesData e entry) :=
  inferInstanceAs (Decidable (_ ∧ _ ∧ _ ∧ _ ∧ _ ∧ _ ∧ _ ∧ _ ∧ _))

/-- The octets behind the headers. -/
def WscElem.payload (e : WscElem) : List UInt8 :=
  Mem.read e.msg (headerLen + e.wscHdrLen) (e.msgLen - headerLen - e.wscHdrLen)

/-- Neither a message nor a breach of a bound. -/
def WpsEvent.Quiet : WpsEvent → Prop
  | .message .. | .underflow | .outside => False
  | _ => True

/-- Only the identifier, and nothing of note. -/
def Aside (rx : WscRx) (r : WscRx × List WpsEvent) : Prop :=
  (∃ id, r.1 = { rx with lastId := id }) ∧ ∀ ev ∈ r.2, ev.Quiet

section

variable {rx : WscRx} {e : WscElem} {entry : Option WpsEntry}

theorem aside_nil : Aside rx (rx, []) :=
  ⟨⟨rx.lastId, rfl⟩, fun _ h => nomatch h⟩

theorem aside_action (id : UInt8) (addr data : List UInt8) :
    Aside rx ({ rx with lastId := id }, [.action addr data]) := by
  refine ⟨⟨id, rfl⟩, fun ev hev => ?_⟩
  rw [List.mem_singleton.1 hev]
  trivial

/-- **An EAPOL packet** either carries data, and is taken as such, or leaves the buffer alone. -/
theorem eapolPacket_cases (entry : WpsEntry) (htype : e.msgType = .eapolPacketMsg) :
    (CarriesData e (some entry) ∧ ∃ id,
        eapolPacket rx e entry = wscData { rx with lastId := id } e (e.msgLen - headerLen)) ∨
      ¬ CarriesData e (some entry) ∧ Aside rx (eapolPacket rx e entry) := by
  unfold eapolPacket
  split
  · rename_i hfail
    exact .inr ⟨fun h => h.2.2.2.2.1 hfail, aside_action rx.lastId _ _⟩
  rename_i hfail
  split
  · rename_i hid
    exact .inr ⟨fun h => h.2.2.2.2.2.1 hid, aside_action _ _ _⟩
  rename_i hid
  split
  · rename_i hwsc
    split
    · rename_i hlen
      exact .inr ⟨fun h => absurd h.2.1 (Nat.not_lt.2 hlen), aside_nil⟩
    rename_i hlen
    split
    · rename_i hhdr
      split
      · rename_i hack
        exact .inr ⟨fun h => h.2.2.2.1 hack, aside_action _ _ _⟩
      rename_i hack
      split
      · rename_i hstart
        exact .inr ⟨fun h => h.2.2.2.2.2.2.1 ⟨hwsc.1, hwsc.2, hstart⟩, aside_action _ _ _⟩
      · rename_i hstart
        refine .inl ⟨⟨htype, Nat.lt_of_not_le hlen, hhdr, hack, hfail, hid,
          fun h => hstart h.2.2, fun h => (nomatch h), fun h => ?_⟩, _, rfl⟩
        have hcode := hwsc.1.symm.trans h.2.1
        exact absurd hcode (by decide)
    · rename_i hhdr
      exact .inr ⟨fun h => hhdr h.2.2.1, ⟨_, rfl⟩, fun _ h => nomatch h⟩
  rename_i hwsc
  split
  · rename_i hlen
    exact .inr ⟨fun h => absurd h.2.1 (Nat.not_lt.2 hlen), aside_nil⟩
  rename_i hlen
  split
  · rename_i hrsp
    have hno : ¬ CarriesData e (some entry) := by
      rintro ⟨-, -, -, -, -, -, -, -, hdata⟩
      exact hdata ⟨congrArg some hrsp.1, hrsp.2⟩
    split
    · exact .inr ⟨hno, aside_action rx.lastId _ _⟩
    · refine .inr ⟨hno, ⟨rx.lastId, rfl⟩, fun ev hev => ?_⟩
      rw [List.mem_singleton.1 hev]
      trivial
  rename_i hrsp
  split
  · rename_i hhdr
    split
    · rename_i hack
      exact .inr ⟨fun h => h.2.2.2.1 hack, aside_action rx.lastId _ _⟩
    · rename_i hack
      exact .inl ⟨⟨htype, Nat.lt_of_not_le hlen, hhdr, hack, hfail, hid,
        fun h => hwsc ⟨h.1, h.2.1⟩, fun h => (nomatch h),
        fun h => hrsp ⟨Option.some.inj h.1, h.2⟩⟩, rx.lastId, rfl⟩
  · rename_i hhdr
    exact .inr ⟨fun h => hhdr h.2.2.1, aside_nil⟩

/-- **A frame** either carries data, and is taken as such, or leaves the buffer alone. -/
theorem wpsSmProcess_cases (rx : WscRx) (e : WscElem) (entry : Option WpsEntry) :
    (CarriesData e entry ∧ ∃ id,
        wpsSmProcess rx e entry = wscData { rx with lastId := id } e (e.msgLen - headerLen)) ∨
      ¬ CarriesData e entry ∧ Aside rx (wpsSmProcess rx e entry) := by
  have hother : e.msgType ≠ .eapolPacketMsg → ¬ CarriesData e entry := fun hne h => hne h.1
  unfold wpsSmProcess
  cases htype : e.msgType with
  | eapolUpnpMsg =>
    refine .inr ⟨hother (by rw [htype]; decide), ?_⟩
    dsimp only
    split
    · exact aside_action rx.lastId _ _
    · exact aside_nil
  | eapolStartMsg => exact .inr ⟨hother (by rw [htype]; decide), aside_action rx.lastId _ _⟩
  | unknown => exact .inr ⟨hother (by rw [htype]; decide), aside_nil⟩
  | eapolPacketMsg =>
    cases entry with
    | some entry => exact eapolPacket_cases entry htype
    | none =>
      refine .inr ⟨?_, aside_nil⟩
      rintro ⟨-, -, -, -, -, -, -, hsome, -⟩
      exact hsome rfl

theorem ulongSub_eq {a b : Nat} (h : b ≤ a) (ha : a < 2 ^ 64) : ulongSub a b = a - b := by
  unfold ulongSub
  omega

@[simp] theorem length_payload : e.payload.length = e.msgLen - headerLen - e.wscHdrLen :=
  Mem.length_read _ _ _

/-- The buffer holds `l` and has room behind it. -/
structure Holds (rx : WscRx) (l : List UInt8) : Prop where
  size : rx.rxBuf.length = mgmtDmaBufferSize
  len : rx.rxBufLen = l.length
  held : Mem.read rx.rxBuf 0 rx.rxBufLen = l

theorem holds_empty : Holds {} [] where
  size := List.length_replicate
  len := rfl
  held := rfl

theorem Holds.lastId {l : List UInt8} (h : Holds rx l) (id : UInt8) :
    Holds { rx with lastId := id } l :=
  ⟨h.size, h.len, h.held⟩

/-- **Data that fit**: they are taken behind what the buffer holds. -/
theorem takeData_holds {l : List UInt8} (h : Holds rx l) (pData : Nat) {msgLen : Nat}
    (hfit : l.length + msgLen < mgmtDmaBufferSize - 6) :
    Holds (takeData rx e pData msgLen).1 (l ++ Mem.read e.msg pData msgLen) ∧
      (takeData rx e pData msgLen).2 = [] := by
  have hsize := h.size
  have hlen := h.len
  have hheld := h.held
  simp only [mgmtDmaBufferSize] at hfit hsize
  have htake : takeData rx e pData msgLen =
      ({ rx with
          rxBuf := Mem.write rx.rxBuf rx.rxBufLen (Mem.read e.msg pData msgLen)
          rxBufLen := rx.rxBufLen + msgLen }, []) := by
    unfold takeData
    rw [if_pos (by simp only [mgmtDmaBufferSize]; omega),
      if_pos (by simp only [mgmtDmaBufferSize]; omega)]
  rw [htake]
  refine ⟨⟨?_, ?_, ?_⟩, rfl⟩
  · rw [Mem.length_write (by rw [Mem.length_read]; omega)]
    exact h.size
  · rw [List.length_append, Mem.length_read, hlen]
  · rw [Mem.read_add, Nat.zero_add, Mem.read_write_front, hheld]
    have hback := Mem.read_write rx.rxBuf (Mem.read e.msg pData msgLen) rx.rxBufLen
    rw [Mem.length_read] at hback
    rw [hback]

/-- **A frame of data with whole headers that fits**: the buffer holds its octets too, or they are
passed on with what it held. -/
theorem wscData_holds {l : List UInt8} (h : Holds rx l)
    (hhdr : e.wscHdrLen ≤ e.msgLen - headerLen)
    (hfit : l.length + e.payload.length < mgmtDmaBufferSize - 6) :
    if e.mf = true then
      Holds (wscData rx e (e.msgLen - headerLen)).1 (l ++ e.payload) ∧
        (wscData rx e (e.msgLen - headerLen)).2 = [.fragAck]
    else
      Holds (wscData rx e (e.msgLen - headerLen)).1 [] ∧
        (wscData rx e (e.msgLen - headerLen)).2 = [.message e.addr2 (l ++ e.payload)] := by
  have hfits := e.fits
  simp only [mgmtDmaBufferSize] at hfits
  have hsub : ulongSub (e.msgLen - headerLen) e.wscHdrLen = e.msgLen - headerLen - e.wscHdrLen :=
    ulongSub_eq hhdr (by omega)
  rw [length_payload] at hfit
  obtain ⟨htaken, hevents⟩ := takeData_holds (e := e) h (headerLen + e.wscHdrLen) hfit
  have hunder : (if e.msgLen - headerLen < e.wscHdrLen then [WpsEvent.underflow] else []) = [] :=
    if_neg (Nat.not_lt.2 hhdr)
  unfold wscData
  rw [hsub, hunder]
  dsimp only
  split
  · rw [hevents]
    exact ⟨htaken, rfl⟩
  · have hback : (if 6 + (takeData rx e (headerLen + e.wscHdrLen)
        (e.msgLen - headerLen - e.wscHdrLen)).1.rxBufLen ≤ mgmtDmaBufferSize then []
        else [WpsEvent.outside]) = [] := by
      rw [htaken.len, List.length_append, Mem.length_read]
      simp only [mgmtDmaBufferSize] at hfit ⊢
      exact if_pos (by omega)
    rw [hback, hevents, htaken.held]
    exact ⟨⟨List.length_replicate, rfl, rfl⟩, rfl⟩

end

end Mt7601.Wsc
