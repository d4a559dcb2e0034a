/-
# WPS messages in several EAP frames: the sender

`WscSendMessage` of `common/wsc.c`, the end of `WscEapEnrolleeAction` and `WscEapRegistrarAction`,
which send a message or, if it is too long, its first fragment, `WscSendEapFragData` of
`common/wsc_v2.c`, which answers an acknowledgement with the next one, and what
`WscEAPOLTimeOutAction` sends again: the last message as a whole.

A frame that is sent is a frame of data to the receiver, with the octets it was given and the flags
of the moment (`sent_carriesData`).
-/
import Mt7601.Wsc.SmProcess
import Mathlib.Data.List.GetD

namespace Mt7601.Wsc

/-! ## 1. Frames that are sent -/

/-- `WSC_CTRL`, what the sender of fragments works on; `lastTx` is `RegData.LastTx`, and
`wscTxBuf` what `pWscTxBuf` holds. -/
structure WscTx where
  bWscFragment : Bool
  wscFragSize : Nat
  wscTxBuf : List UInt8 := []
  wscTxBufLen : Nat := 0
  wscCurBufIdx : Option Nat := none
  bWscFirstOne : Bool := false
  bWscLastOne : Bool := false
  lastTx : List UInt8 := []
  lastId : UInt8 := 1
  eapolTimerPending : Bool := false

/-- The two octets of a length. -/
def lenOctets (n : Nat) : List UInt8 := [UInt8.ofNat (n / 256), UInt8.ofNat n]

/-- The headers of a frame in front of its data. -/
def wscHeaders (length : Nat) (code id opCode flags : UInt8) : List UInt8 :=
  [1, 0] ++ lenOctets length ++ [code, id] ++ lenOctets length ++ [eapTypeWsc] ++ wscSmi ++
    wscVendorType ++ [opCode, flags]

namespace WscTx

variable (tx : WscTx)

/-- `WscFrame.Flags` -/
def flags : UInt8 :=
  (if tx.bWscFragment && !tx.bWscLastOne then wscMsgFlagMf else 0) |||
    (if tx.bWscFragment && tx.bWscFirstOne then wscMsgFlagLf else 0)

/-- `WscSendMessage`: the octets of `pOutBuffer`, if something is sent. -/
def wscSendMessage (opCode : UInt8) (data : List UInt8) (eapType : UInt8) :
    WscTx × Option (List UInt8) :=
  if data = [] ∧ opCode ≠ wscOpcodeStart ∧ opCode ≠ wscOpcodeFragAck then (tx, none)
  else
    let lf := tx.bWscFragment && tx.bWscFirstOne
    let length := lenEapFrame + lenWscFrame + data.length + (if lf then 2 else 0)
    let id := if eapType = eapCodeReq then tx.lastId + 1 else tx.lastId
    let headers := wscHeaders length eapType id opCode tx.flags
    let sent := { tx with lastId := id }
    if data ≠ [] then
      if lf then
        ({ sent with bWscFirstOne := false },
          some (headers ++ lenOctets (tx.wscTxBufLen + data.length) ++ data))
      else (sent, some (headers ++ data))
    else (sent, some headers)

/-- The end of `WscEapEnrolleeAction` and `WscEapRegistrarAction`: the message that has been built
into `WscData` and `LastTx` is sent, or its first fragment. -/
def wscEapAction (wscData : List UInt8) (eapType : UInt8) : WscTx × Option (List UInt8) :=
  let tx :=
    { tx with
      lastTx := wscData
      wscTxBufLen := 0
      wscCurBufIdx := none
      bWscLastOne := true
      eapolTimerPending := false }
  if tx.bWscFragment ∧ tx.wscFragSize < wscData.length then
    { tx with
      wscTxBuf := wscData
      wscTxBufLen := wscData.length - tx.wscFragSize
      wscCurBufIdx := some tx.wscFragSize
      bWscLastOne := false
      bWscFirstOne := true }.wscSendMessage wscOpcodeMsg (wscData.take tx.wscFragSize) eapType
  else tx.wscSendMessage wscOpcodeMsg wscData eapType

/-- `WscSendNACK` -/
def wscSendNack (wscData : List UInt8) (eapType : UInt8) : WscTx × Option (List UInt8) :=
  tx.wscSendMessage wscOpcodeNack wscData eapType

/-- `pData` of `WscSendEapFragData` -/
def curData (n : Nat) : List UInt8 :=
  match tx.wscCurBufIdx with
  | some i => Mem.read tx.wscTxBuf i n
  | none => []

/-- `WscSendEapFragData`, which `WscEAPAction` calls for an acknowledgement and then leaves the timer
pending. -/
def wscSendEapFragData (eapType : UInt8) : WscTx × Option (List UInt8) :=
  let tx := { tx with eapolTimerPending := true }
  if tx.wscTxBufLen > tx.wscFragSize then
    { tx with
      bWscLastOne := false
      wscTxBufLen := tx.wscTxBufLen - tx.wscFragSize
      wscCurBufIdx := tx.wscCurBufIdx.map (· + tx.wscFragSize) }.wscSendMessage wscOpcodeMsg
      (tx.curData tx.wscFragSize) eapType
  else
    { tx with bWscLastOne := true, wscTxBufLen := 0, wscCurBufIdx := none }.wscSendMessage
      wscOpcodeMsg (tx.curData tx.wscTxBufLen) eapType

/-- `WscEAPOLTimeOutAction`; `waits` says that the timer runs, that the state is one that waits for
the answer to a message, and that it has not been sent again twice already. -/
def wscEapolTimeOutAction (waits : Bool) (eapType : UInt8) : WscTx × Option (List UInt8) :=
  if waits && !tx.eapolTimerPending then tx.wscSendMessage wscOpcodeMsg tx.lastTx eapType
  else (tx, none)

end WscTx

/-! ## 2. Frames that arrive -/

/-- How the frames of a station arrive at its peer: behind an 802.11 header and the LLC octets, and
with the entry the peer has for it. -/
structure WscPeer where
  hdr : Octets lenLlcHdr
  entry : WpsEntry

/-- The element a frame becomes. -/
def WscPeer.elem (p : WscPeer) (out : List UInt8)
    (hfits : lenLlcHdr + out.length ≤ mgmtDmaBufferSize) : WscElem where
  msgType := .eapolPacketMsg
  msg := p.hdr.toList ++ (out ++ List.replicate (mgmtDmaBufferSize - lenLlcHdr - out.length) 0)
  msgLen := lenLlcHdr + out.length
  room := by
    rw [List.length_append, List.length_append, List.Vector.toList_length, List.length_replicate]
    omega
  fits := hfits

/-- The frame is behind the headers of the station, and older octets are behind it. -/
theorem WscPeer.elem_msg (p : WscPeer) {out : List UInt8}
    (hfits : lenLlcHdr + out.length ≤ mgmtDmaBufferSize) :
    (p.elem out hfits).msg =
      p.hdr.toList ++ (out ++ List.replicate (mgmtDmaBufferSize - lenLlcHdr - out.length) 0) :=
  rfl

section

variable {p : WscPeer} {out : List UInt8} (hfits : lenLlcHdr + out.length ≤ mgmtDmaBufferSize)

theorem getD_elem {i : Nat} (hi : i < out.length) :
    (p.elem out hfits).msg.getD (lenLlcHdr + i) 0 = out.getD i 0 := by
  have hlen : p.hdr.toList.length = lenLlcHdr := p.hdr.toList_length
  rw [p.elem_msg, List.getD_append_right _ _ _ _ (by omega), hlen, Nat.add_sub_cancel_left,
    List.getD_append _ _ _ _ hi]

theorem read_elem {l : List UInt8} {off n : Nat} (front rest : List UInt8)
    (hout : out = front ++ (l ++ rest)) (hoff : off = lenLlcHdr + front.length) (hn : n = l.length) :
    Mem.read (p.elem out hfits).msg off n = l := by
  refine Mem.read_middle (p.hdr.toList ++ front)
    (rest ++ List.replicate (mgmtDmaBufferSize - lenLlcHdr - out.length) 0) ?_ ?_ hn
  · rw [p.elem_msg]
    generalize List.replicate (mgmtDmaBufferSize - lenLlcHdr - out.length) (0 : UInt8) = older
    rw [hout]
    simp only [List.append_assoc]
  · rw [List.length_append, List.Vector.toList_length, hoff]

/-- The octets in front of the data of a frame. -/
structure DataFrame (out : List UInt8) (code opCode flags : UInt8) (data : List UInt8) : Prop where
  layout : ∃ length id lf, out = wscHeaders length code id opCode flags ++ (lf ++ data) ∧
    lf.length = if flags &&& wscMsgFlagLf ≠ 0 then 2 else 0
  code : code = eapCodeReq ∨ code = eapCodeRsp
  opCode : opCode = wscOpcodeMsg ∨ opCode = wscOpcodeNack

theorem DataFrame.length {code opCode flags : UInt8} {data : List UInt8}
    (h : DataFrame out code opCode flags data) :
    out.length = 18 + (if flags &&& wscMsgFlagLf ≠ 0 then 2 else 0) + data.length := by
  obtain ⟨length, id, lf, hout, hlf⟩ := h.layout
  rw [hout, List.length_append, List.length_append, hlf, Nat.add_assoc]
  rfl

/-- **A frame of data arrives as one**, with its flags and its octets. -/
theorem DataFrame.arrives {code opCode flags : UInt8} {data : List UInt8}
    (h : DataFrame out code opCode flags data) (hdata : data ≠ []) :
    CarriesData (p.elem out hfits) (some p.entry) ∧
      (p.elem out hfits).payload = data ∧
      (p.elem out hfits).mf = (flags &&& wscMsgFlagMf ≠ 0 : Bool) ∧
      (p.elem out hfits).wscHdrLen ≤ (p.elem out hfits).msgLen - headerLen := by
  have hlength := h.length
  obtain ⟨length, id, lf, hout, hlf⟩ := h.layout
  have hpos : 0 < data.length := List.length_pos_iff.2 hdata
  have hlong : 18 ≤ out.length := by omega
  have hmsgLen : (p.elem out hfits).msgLen = lenLlcHdr + out.length := rfl
  -- the fields of the headers
  have hfield : ∀ {i : Nat}, i < 18 → (p.elem out hfits).msg.getD (lenLlcHdr + i) 0 =
      (wscHeaders length code id opCode flags).getD i 0 := by
    intro i hi
    rw [getD_elem hfits (by omega), hout, List.getD_append _ _ _ _ hi]
  have hcode : (p.elem out hfits).eapCode = code := hfield (i := 4) (by decide)
  have htype : (p.elem out hfits).eapType = eapTypeWsc := hfield (i := 8) (by decide)
  have hop : (p.elem out hfits).opCode = opCode := hfield (i := 16) (by decide)
  have hflags : (p.elem out hfits).flags = flags := hfield (i := 17) (by decide)
  have hcheck : (p.elem out hfits).wscCheckWscHeader = true := by
    have hsmi : Mem.read (p.elem out hfits).msg headerLen 3 = wscSmi :=
      read_elem hfits ((wscHeaders length code id opCode flags).take 9)
        (wscVendorType ++ [opCode, flags] ++ (lf ++ data)) hout rfl rfl
    have hvendor : Mem.read (p.elem out hfits).msg (headerLen + 3) 4 = wscVendorType :=
      read_elem hfits ((wscHeaders length code id opCode flags).take 12)
        ([opCode, flags] ++ (lf ++ data)) hout rfl rfl
    unfold WscElem.wscCheckWscHeader
    rw [hsmi, hvendor]
    rfl
  have hhdrLen : (p.elem out hfits).wscHdrLen = lenWscFrame + lf.length := by
    unfold WscElem.wscHdrLen WscElem.lf
    rw [hflags, hlf]
    by_cases hbit : flags &&& wscMsgFlagLf ≠ 0
    · rw [if_pos (by simpa using hbit), if_pos hbit]
    · rw [if_neg (by simpa using hbit), if_neg hbit, Nat.add_zero]
  have hrest : (p.elem out hfits).msgLen - headerLen = lenWscFrame + lf.length + data.length := by
    rw [hmsgLen, hlength, ← hlf]
    simp only [headerLen, lenLlcHdr, lenIeee8021xFrame, lenEapFrame, lenWscFrame]
    omega
  refine ⟨⟨rfl, ?_, hcheck, ?_, ?_, ?_, ?_, ?_, ?_⟩, ?_, ?_, ?_⟩
  · simp only [lenWscFrame] at hrest
    omega
  · rw [hop]
    rcases h.opCode with rfl | rfl <;> decide
  · rw [hcode]
    rcases h.code with rfl | rfl <;> decide
  · rw [htype]
    exact fun hid => absurd hid.2 (by decide)
  · rw [hop]
    rintro ⟨-, -, hstart⟩
    rcases h.opCode with rfl | rfl <;> exact absurd hstart (by decide)
  · exact (nomatch ·)
  · rw [htype]
    exact fun hid => absurd hid.2.2 (by decide)
  · unfold WscElem.payload
    rw [hhdrLen, hrest]
    refine read_elem hfits (wscHeaders length code id opCode flags ++ lf) [] ?_ ?_ (by omega)
    · rw [hout, List.append_nil, List.append_assoc]
    · rw [List.length_append, ← Nat.add_assoc, ← Nat.add_assoc]
      rfl
  · unfold WscElem.mf
    rw [hflags]
  · rw [hhdrLen, hrest]
    omega

end

/-! ## 3. What is sent -/

section

variable {tx : WscTx} {opCode code : UInt8} {data : List UInt8}

/-- The flags say whether a length is there and whether more fragments come. -/
theorem flags_lf (hfrag : tx.bWscFragment = true) :
    tx.flags &&& wscMsgFlagLf ≠ 0 ↔ tx.bWscFirstOne = true := by
  unfold WscTx.flags
  rw [hfrag]
  cases tx.bWscLastOne <;> cases tx.bWscFirstOne <;> decide

theorem flags_mf (hfrag : tx.bWscFragment = true) :
    (tx.flags &&& wscMsgFlagMf ≠ 0 : Bool) = !tx.bWscLastOne := by
  unfold WscTx.flags
  rw [hfrag]
  cases tx.bWscLastOne <;> cases tx.bWscFirstOne <;> decide

/-- **What `WscSendMessage` sends** of some octets, with fragmentation on: a frame of data with the
flags of the moment; only the first one is the first one. -/
theorem wscSendMessage_sends (hfrag : tx.bWscFragment = true) (hdata : data ≠ [])
    (hcode : code = eapCodeReq ∨ code = eapCodeRsp)
    (hop : opCode = wscOpcodeMsg ∨ opCode = wscOpcodeNack) :
    ∃ id out, tx.wscSendMessage opCode data code =
        ({ tx with lastId := id, bWscFirstOne := false }, some out) ∧
      DataFrame out code opCode tx.flags data := by
  have hlf := flags_lf hfrag
  unfold WscTx.wscSendMessage
  rw [if_neg (fun h => hdata h.1)]
  generalize tx.flags = flags at hlf ⊢
  obtain ⟨bWscFragment, F, buf, len, cur, first, last, lastTx, lastId, pending⟩ := tx
  dsimp only at hfrag hlf ⊢
  rw [if_pos hdata, hfrag, Bool.true_and]
  generalize (if code = eapCodeReq then lastId + 1 else lastId) = id
  cases first with
  | true =>
    refine ⟨id, _, rfl, ⟨_, id, lenOctets (len + data.length), List.append_assoc _ _ _, ?_⟩,
      hcode, hop⟩
    rw [if_pos (hlf.2 rfl)]
    rfl
  | false =>
    refine ⟨id, _, rfl, ⟨_, id, [], rfl, ?_⟩, hcode, hop⟩
    rw [if_neg (fun h => absurd (hlf.1 h) (by decide))]
    rfl

end

end Mt7601.Wsc
