/-
# WPS messages in several EAP frames: from end to end

A sender and a receiver of fragments with a link between them that keeps the order of frames and may
lose frames and acknowledgements, and the timer that has the last message sent again.

What the timer sends is not the last frame but the last message as a whole, under the flags of the
moment, and it sends nothing any more after the first acknowledgement. So a lost fragment or
acknowledgement is not made up for. What is: a message in a single frame, as long as no second copy
arrives. Everything else has to arrive, and a message must not begin before the one before it is
through (`delivers_of_stepsMeet`).
-/
import Mt7601.Wsc.SendMessage

namespace Mt7601.Wsc

/-! ## 1. The link -/

/-- The two sides and what is between them; beside them the messages that were sent, and whether
what was sent last has been lost and not been sent again. -/
structure WscLink where
  tx : WscTx
  rx : WscRx := {}
  toPeer : List (List UInt8) := []
  acks : Nat := 0
  delivered : List (List UInt8) := []
  sent : List (List UInt8) := []
  lost : Bool := false

inductive WscLinkOp
  /-- `WscEapEnrolleeAction` or `WscEapRegistrarAction` has built a message. -/
  | message (data : List UInt8)
  | nack (data : List UInt8)
  /-- The oldest frame on the way to the peer arrives, or is lost. -/
  | arrives
  | lose
  /-- An acknowledgement arrives, or is lost. -/
  | ackArrives
  | ackLose
  | timer (waits : Bool)

/-- The messages among the events. -/
def messagesOf (events : List WpsEvent) : List (List UInt8) :=
  events.filterMap fun
    | .message _ data => some data
    | _ => none

namespace WscLink

/-- The sender has gone on, and what it sent is on the way. -/
def emit (s : WscLink) (r : WscTx × Option (List UInt8)) : WscLink :=
  { s with tx := r.1, toPeer := s.toPeer ++ r.2.toList }

/-- The oldest frame on the way arrives. A frame that is too long for an element is not taken. -/
def arrive (p : WscPeer) (s : WscLink) : WscLink :=
  match s.toPeer with
  | [] => s
  | out :: rest =>
    if hfits : lenLlcHdr + out.length ≤ mgmtDmaBufferSize then
      let r := wpsSmProcess s.rx (p.elem out hfits) (some p.entry)
      { s with
        rx := r.1
        toPeer := rest
        acks := s.acks + r.2.count .fragAck
        delivered := s.delivered ++ messagesOf r.2 }
    else { s with toPeer := rest }

/-- A step; `code` is that of the sender's frames. -/
def step (p : WscPeer) (code : UInt8) (s : WscLink) : WscLinkOp → WscLink
  | .message data =>
    { s.emit (s.tx.wscEapAction data code) with sent := s.sent ++ [data], lost := false }
  | .nack data =>
    { s.emit (s.tx.wscSendNack data code) with sent := s.sent ++ [data], lost := false }
  | .arrives => s.arrive p
  | .lose =>
    match s.toPeer with
    | [] => s
    | _ :: rest => { s with toPeer := rest, lost := true }
  | .ackArrives =>
    if s.acks = 0 then s
    else { s with acks := s.acks - 1 }.emit (s.tx.wscSendEapFragData code)
  | .ackLose => if s.acks = 0 then s else { s with acks := s.acks - 1, lost := true }
  | .timer waits =>
    { s.emit (s.tx.wscEapolTimeOutAction waits code) with
      lost := s.lost && !(waits && !s.tx.eapolTimerPending) }

/-- Nothing is on the way, and nothing is lost. -/
def Rests (s : WscLink) : Prop := s.toPeer = [] ∧ s.acks = 0 ∧ s.lost = false

/-- What was sent last is a message in a single frame that the timer will have sent again. -/
def Resendable (s : WscLink) : Prop :=
  s.sent.getLast? = some s.tx.lastTx ∧ s.tx.lastTx.length ≤ s.tx.wscFragSize ∧
    s.tx.eapolTimerPending = false

/-- **The law**: what is passed on are the messages that were sent, in their order and each once, and
with nothing on the way and nothing lost it is all of them. -/
def Delivers (s : WscLink) : Prop :=
  s.delivered <+: s.sent ∧ (s.Rests → s.delivered = s.sent)

/-- The condition on a step. A message begins when the one before it is through, and it is no longer
than the receiver's buffer; a NACK, which is not cut, also needs the flags of a last fragment. Only
a message in a single frame may be lost, and the timer has it sent again only then. -/
def Keeps (s : WscLink) : WscLinkOp → Prop
  | .message data => s.Rests ∧ data ≠ [] ∧ data.length < mgmtDmaBufferSize - 6
  | .nack data =>
    s.Rests ∧ data ≠ [] ∧ s.tx.bWscLastOne = true ∧ data.length + 50 ≤ mgmtDmaBufferSize
  | .arrives => True
  | .lose => s.toPeer ≠ [] → s.Resendable
  | .ackArrives => True
  | .ackLose => s.acks = 0
  | .timer waits =>
    waits = false ∨ s.tx.eapolTimerPending = true ∨ s.toPeer = [] ∧ s.acks = 0 ∧ s.lost = true

/-! ## 2. What holds in between -/

/-- A message with the parts that the receiver has, that is on the way, and that is still to come. -/
structure Cut (s : WscLink) (m pre d rest : List UInt8) : Prop where
  sent : s.sent = s.delivered ++ [m]
  message : m = pre ++ (d ++ rest)
  size : m.length < mgmtDmaBufferSize - 6
  holds : Holds s.rx pre
  txLen : s.tx.wscTxBufLen = rest.length
  txBuf : rest ≠ [] → s.tx.wscTxBuf = m ∧ s.tx.wscCurBufIdx = some (pre.length + d.length)

/-- Where the message is. -/
inductive Phase (code : UInt8) (s : WscLink) : Prop
  /-- All messages are through. -/
  | idle (rests : s.Rests) (holds : Holds s.rx []) (all : s.delivered = s.sent)
      (txLen : s.tx.wscTxBufLen = 0)
  /-- A fragment is on the way, the last one if none is to come. -/
  | frame (m pre d rest out : List UInt8) (opCode flags : UInt8) (cut : s.Cut m pre d rest)
      (toPeer : s.toPeer = [out]) (acks : s.acks = 0) (lost : s.lost = false) (some : d ≠ [])
      (data : DataFrame out code opCode flags d)
      (mf : (flags &&& wscMsgFlagMf ≠ 0 : Bool) = !s.tx.bWscLastOne)
      (last : s.tx.bWscLastOne = true ↔ rest = [])
      (fits : lenLlcHdr + out.length ≤ mgmtDmaBufferSize)
      (full : (rest ≠ [] → d.length = s.tx.wscFragSize) ∧ (pre ≠ [] → s.tx.wscFragSize ≤ pre.length))
  /-- An acknowledgement is on the way. -/
  | ack (m pre rest : List UInt8) (cut : s.Cut m pre [] rest) (toPeer : s.toPeer = [])
      (acks : s.acks = 1) (lost : s.lost = false) (some : rest ≠ [])
      (full : s.tx.wscFragSize ≤ pre.length)
  /-- A message in a single frame is lost and will be sent again. -/
  | gone (m : List UInt8) (cut : s.Cut m [] m []) (toPeer : s.toPeer = []) (acks : s.acks = 0)
      (lost : s.lost = true) (some : m ≠ []) (lastTx : s.tx.lastTx = m)
      (last : s.tx.bWscLastOne = true) (single : m.length ≤ s.tx.wscFragSize)

/-- What holds in every state: fragmentation is on, with a size that the element of the receiver has
room for, and the message is somewhere. -/
structure LinkInv (code : UInt8) (s : WscLink) : Prop where
  fragment : s.tx.bWscFragment = true
  size : 0 < s.tx.wscFragSize ∧ s.tx.wscFragSize + 52 ≤ mgmtDmaBufferSize
  first : s.tx.bWscFirstOne = false
  phase : Phase code s

theorem LinkInv.delivers {code : UInt8} {s : WscLink} (h : LinkInv code s) : s.Delivers := by
  cases h.phase with
  | idle rests holds all =>
    rw [Delivers, all]
    exact ⟨List.prefix_refl _, fun _ => rfl⟩
  | frame m pre d rest out opCode flags cut toPeer =>
    refine ⟨cut.sent ▸ List.prefix_append _ _, fun hrests => ?_⟩
    exact absurd (toPeer.symm.trans hrests.1) (List.cons_ne_nil _ _)
  | ack m pre rest cut toPeer acks =>
    refine ⟨cut.sent ▸ List.prefix_append _ _, fun hrests => ?_⟩
    exact absurd (acks.symm.trans hrests.2.1) (by decide)
  | gone m cut toPeer acks lost =>
    refine ⟨cut.sent ▸ List.prefix_append _ _, fun hrests => ?_⟩
    exact absurd (lost.symm.trans hrests.2.2) (by decide)

/-! ## 3. Sending -/

section

variable {code opCode : UInt8} {tx : WscTx} {rx : WscRx} {delivered sent : List (List UInt8)}

/-- **A part of a message is sent.** -/
theorem linkInv_sends (m pre d rest : List UInt8) (hfrag : tx.bWscFragment = true)
    (hsize : 0 < tx.wscFragSize ∧ tx.wscFragSize + 52 ≤ mgmtDmaBufferSize)
    (hcode : code = eapCodeReq ∨ code = eapCodeRsp)
    (hop : opCode = wscOpcodeMsg ∨ opCode = wscOpcodeNack)
    (hcut : Cut ⟨tx, rx, [], 0, delivered, sent, false⟩ m pre d rest) (hd : d ≠ [])
    (hlast : tx.bWscLastOne = true ↔ rest = [])
    (hfits : (if tx.bWscFirstOne = true then 2 else 0) + d.length + 50 ≤ mgmtDmaBufferSize)
    (hfull : (rest ≠ [] → d.length = tx.wscFragSize) ∧ (pre ≠ [] → tx.wscFragSize ≤ pre.length)) :
    LinkInv code
      (emit ⟨tx, rx, [], 0, delivered, sent, false⟩ (tx.wscSendMessage opCode d code)) := by
  obtain ⟨id, out, hsend, hdata⟩ := wscSendMessage_sends hfrag hd hcode hop
  have hout : out.length = 18 + (if tx.bWscFirstOne = true then 2 else 0) + d.length := by
    rw [hdata.length, if_congr (flags_lf hfrag) rfl rfl]
  rw [hsend]
  refine ⟨hfrag, hsize, rfl, .frame m pre d rest out opCode tx.flags
    ⟨hcut.sent, hcut.message, hcut.size, hcut.holds, hcut.txLen, hcut.txBuf⟩ rfl rfl rfl hd hdata
    (flags_mf hfrag) hlast ?_ hfull⟩
  simp only [lenLlcHdr]
  omega

/-- **A message begins**. -/
theorem linkInv_message {data : List UInt8} (hfrag : tx.bWscFragment = true)
    (hsize : 0 < tx.wscFragSize ∧ tx.wscFragSize + 52 ≤ mgmtDmaBufferSize)
    (hfirst : tx.bWscFirstOne = false) (hcode : code = eapCodeReq ∨ code = eapCodeRsp)
    (hdata : data ≠ []) (hlen : data.length < mgmtDmaBufferSize - 6) (hholds : Holds rx []) :
    LinkInv code (emit ⟨tx, rx, [], 0, delivered, delivered ++ [data], false⟩
      (tx.wscEapAction data code)) := by
  unfold WscTx.wscEapAction
  dsimp only
  split
  · -- the first fragment
    rename_i hlong
    have hpos : 0 < (data.drop tx.wscFragSize).length := by
      rw [List.length_drop]
      omega
    have hrest : data.drop tx.wscFragSize ≠ [] := List.length_pos_iff.1 hpos
    have htake : (data.take tx.wscFragSize).length = tx.wscFragSize := by
      rw [List.length_take]
      omega
    refine linkInv_sends data [] (data.take tx.wscFragSize) (data.drop tx.wscFragSize) hfrag hsize
      hcode (.inl rfl) ⟨rfl, ?_, hlen, hholds, ?_, ?_⟩ ?_ ?_ ?_ ?_
    · rw [List.nil_append, List.take_append_drop]
    · rw [List.length_drop]
    · intro _
      refine ⟨rfl, ?_⟩
      rw [List.length_nil, Nat.zero_add, htake]
    · exact List.length_pos_iff.1 (by omega)
    · exact ⟨fun h => (nomatch h), fun h => absurd h hrest⟩
    · rw [htake]
      simp only [if_true]
      omega
    · exact ⟨fun _ => htake, fun h => absurd rfl h⟩
  · -- in a single frame
    rename_i hshort
    have hle : data.length ≤ tx.wscFragSize := Nat.le_of_not_lt fun hlt => hshort ⟨hfrag, hlt⟩
    refine linkInv_sends data [] data [] hfrag hsize hcode (.inl rfl)
      ⟨rfl, ?_, hlen, hholds, rfl, ?_⟩ hdata ?_ ?_ ?_
    · rw [List.nil_append, List.append_nil]
    · exact fun h => absurd rfl h
    · exact ⟨fun _ => rfl, fun _ => rfl⟩
    · dsimp only
      rw [hfirst]
      simp only [Bool.false_eq_true, if_false]
      omega
    · exact ⟨fun h => absurd rfl h, fun h => absurd rfl h⟩

/-- **A NACK is sent**, under the flags of a last fragment. -/
theorem linkInv_nack {data : List UInt8} (hfrag : tx.bWscFragment = true)
    (hsize : 0 < tx.wscFragSize ∧ tx.wscFragSize + 52 ≤ mgmtDmaBufferSize)
    (hfirst : tx.bWscFirstOne = false) (hcode : code = eapCodeReq ∨ code = eapCodeRsp)
    (hdata : data ≠ []) (hlen : data.length + 50 ≤ mgmtDmaBufferSize)
    (hlast : tx.bWscLastOne = true) (htxLen : tx.wscTxBufLen = 0) (hholds : Holds rx []) :
    LinkInv code (emit ⟨tx, rx, [], 0, delivered, delivered ++ [data], false⟩
      (tx.wscSendNack data code)) := by
  unfold WscTx.wscSendNack
  refine linkInv_sends data [] data [] hfrag hsize hcode (.inr rfl)
    ⟨rfl, ?_, ?_, hholds, htxLen, ?_⟩ hdata ?_ ?_ ?_
  · rw [List.nil_append, List.append_nil]
  · simp only [mgmtDmaBufferSize] at hlen ⊢
    omega
  · exact fun h => absurd rfl h
  · exact ⟨fun _ => rfl, fun _ => hlast⟩
  · rw [hfirst]
    simp only [Bool.false_eq_true, if_false]
    omega
  · exact ⟨fun h => absurd rfl h, fun h => absurd rfl h⟩

/-- **The next fragment is sent.** -/
theorem linkInv_fragData {m pre rest : List UInt8} (hfrag : tx.bWscFragment = true)
    (hsize : 0 < tx.wscFragSize ∧ tx.wscFragSize + 52 ≤ mgmtDmaBufferSize)
    (hfirst : tx.bWscFirstOne = false) (hcode : code = eapCodeReq ∨ code = eapCodeRsp)
    (hcut : Cut ⟨tx, rx, [], 1, delivered, sent, false⟩ m pre [] rest) (hrest : rest ≠ [])
    (hfull : tx.wscFragSize ≤ pre.length) :
    LinkInv code (emit ⟨tx, rx, [], 0, delivered, sent, false⟩ (tx.wscSendEapFragData code)) := by
  have htxLen : tx.wscTxBufLen = rest.length := hcut.txLen
  obtain ⟨hbuf, hcur⟩ := hcut.txBuf hrest
  dsimp only at hbuf hcur
  rw [List.length_nil, Nat.add_zero] at hcur
  have hmessage : m = pre ++ rest := hcut.message
  -- what stands at the cursor
  have hread : ∀ n, n ≤ rest.length → tx.curData n = rest.take n := by
    intro n hn
    unfold WscTx.curData
    rw [hcur, hbuf]
    refine Mem.read_middle pre (rest.drop n) ?_ rfl ?_
    · rw [List.take_append_drop, hmessage]
    · rw [List.length_take, Nat.min_eq_left hn]
  unfold WscTx.wscSendEapFragData
  dsimp only
  split
  · -- more are to come
    rename_i hmore
    rw [htxLen] at hmore
    have hdata : tx.curData tx.wscFragSize = rest.take tx.wscFragSize := hread _ (by omega)
    have htake : (rest.take tx.wscFragSize).length = tx.wscFragSize := by
      rw [List.length_take]
      omega
    have hpos : 0 < (rest.drop tx.wscFragSize).length := by
      rw [List.length_drop]
      omega
    have hdrop : rest.drop tx.wscFragSize ≠ [] := List.length_pos_iff.1 hpos
    rw [show ({ tx with eapolTimerPending := true } : WscTx).curData tx.wscFragSize =
      rest.take tx.wscFragSize from hdata]
    refine linkInv_sends m pre (rest.take tx.wscFragSize) (rest.drop tx.wscFragSize) hfrag hsize
      hcode (.inl rfl) ⟨hcut.sent, ?_, hcut.size, hcut.holds, ?_, ?_⟩ ?_ ?_ ?_ ?_
    · rw [List.take_append_drop, hmessage]
    · rw [List.length_drop, ← htxLen]
    · intro _
      refine ⟨hbuf, ?_⟩
      dsimp only
      rw [hcur, htake]
      rfl
    · exact List.length_pos_iff.1 (by omega)
    · exact ⟨fun h => (nomatch h), fun h => absurd h hdrop⟩
    · rw [htake]
      dsimp only
      rw [hfirst]
      simp only [Bool.false_eq_true, if_false]
      omega
    · exact ⟨fun _ => htake, fun _ => hfull⟩
  · -- the last one
    rename_i hlast
    rw [htxLen] at hlast
    have hdata : tx.curData tx.wscTxBufLen = rest := by
      rw [htxLen, hread _ (Nat.le_refl _), List.take_length]
    rw [show ({ tx with eapolTimerPending := true } : WscTx).curData tx.wscTxBufLen = rest
      from hdata]
    refine linkInv_sends m pre rest [] hfrag hsize hcode (.inl rfl)
      ⟨hcut.sent, ?_, hcut.size, hcut.holds, rfl, ?_⟩ hrest ?_ ?_ ?_
    · rw [List.append_nil, hmessage]
    · exact fun h => absurd rfl h
    · exact ⟨fun _ => rfl, fun _ => rfl⟩
    · dsimp only
      rw [hfirst]
      simp only [Bool.false_eq_true, if_false]
      omega
    · exact ⟨fun h => absurd rfl h, fun _ => hfull⟩

/-- **A lost message in a single frame is sent again.** -/
theorem linkInv_again {m : List UInt8} (hfrag : tx.bWscFragment = true)
    (hsize : 0 < tx.wscFragSize ∧ tx.wscFragSize + 52 ≤ mgmtDmaBufferSize)
    (hfirst : tx.bWscFirstOne = false) (hcode : code = eapCodeReq ∨ code = eapCodeRsp)
    (hcut : Cut ⟨tx, rx, [], 0, delivered, sent, true⟩ m [] m []) (hm : m ≠ [])
    (hlast : tx.bWscLastOne = true) (hsingle : m.length ≤ tx.wscFragSize) :
    LinkInv code (emit ⟨tx, rx, [], 0, delivered, sent, false⟩
      (tx.wscSendMessage wscOpcodeMsg m code)) := by
  refine linkInv_sends m [] m [] hfrag hsize hcode (.inl rfl)
    ⟨hcut.sent, hcut.message, hcut.size, hcut.holds, hcut.txLen, hcut.txBuf⟩ hm
    ⟨fun _ => rfl, fun _ => hlast⟩ ?_ ⟨fun h => absurd rfl h, fun h => absurd rfl h⟩
  rw [hfirst]
  simp only [Bool.false_eq_true, if_false]
  omega

end

/-! ## 4. Arriving -/

section

variable {p : WscPeer} {code : UInt8} {s : WscLink} {m pre d rest out : List UInt8}
  {opCode flags : UInt8}

/-- **A fragment arrives**: the receiver has it too, and with the last one passes the message on. -/
theorem arrive_frame (hcut : s.Cut m pre d rest) (htoPeer : s.toPeer = [out]) (hd : d ≠ [])
    (hdata : DataFrame out code opCode flags d)
    (hmf : (flags &&& wscMsgFlagMf ≠ 0 : Bool) = !s.tx.bWscLastOne)
    (hlast : s.tx.bWscLastOne = true ↔ rest = [])
    (hfits : lenLlcHdr + out.length ≤ mgmtDmaBufferSize) :
    ∃ rx : WscRx,
      if rest = [] then
        s.arrive p = { s with rx := rx, toPeer := [], delivered := s.delivered ++ [m] } ∧
          Holds rx []
      else
        s.arrive p = { s with rx := rx, toPeer := [], acks := s.acks + 1 } ∧ Holds rx (pre ++ d) := by
  obtain ⟨hcarries, hpayload, hflag, hhdr⟩ := hdata.arrives (p := p) hfits hd
  rw [hmf] at hflag
  have hsize := hcut.size
  have hlen : pre.length + (p.elem out hfits).payload.length < mgmtDmaBufferSize - 6 := by
    rw [hcut.message, List.length_append, List.length_append] at hsize
    rw [hpayload]
    omega
  rcases wpsSmProcess_cases s.rx (p.elem out hfits) (some p.entry) with ⟨-, id, hproc⟩ | ⟨hno, -⟩
  · have hdone := wscData_holds (hcut.holds.lastId id) hhdr hlen
    rw [hpayload, hflag, ← hproc] at hdone
    refine ⟨(wpsSmProcess s.rx (p.elem out hfits) (some p.entry)).1, ?_⟩
    unfold arrive
    rw [htoPeer]
    dsimp only
    rw [dif_pos hfits]
    split
    · rename_i hend
      rw [hlast.2 hend, if_neg (by decide)] at hdone
      rw [hdone.2]
      refine ⟨?_, hdone.1⟩
      rw [hcut.message, hend, List.append_nil]
      rfl
    · rename_i hmore
      have hfalse : s.tx.bWscLastOne = false :=
        Bool.eq_false_of_not_eq_true fun h => hmore (hlast.1 h)
      rw [hfalse, if_pos (by decide)] at hdone
      rw [hdone.2]
      refine ⟨?_, hdone.1⟩
      rw [show messagesOf [.fragAck] = [] from rfl, List.append_nil]
      rfl
  · exact absurd hcarries hno

end

/-! ## 5. Steps and runs -/

section

variable {p : WscPeer} {code : UInt8} {s : WscLink}

theorem LinkInv.arrives (h : LinkInv code s) : LinkInv code (s.arrive p) := by
  cases h.phase with
  | frame m pre d rest out opCode flags cut toPeer acks lost some data mf last fits full =>
    obtain ⟨rx, harrive⟩ := arrive_frame (p := p) cut toPeer some data mf last fits
    have htxLen := cut.txLen
    split at harrive
    · -- the message is through
      rename_i hend
      rw [harrive.1]
      refine ⟨h.fragment, h.size, h.first, .idle ⟨rfl, acks, lost⟩ harrive.2 cut.sent.symm ?_⟩
      rw [hend] at htxLen
      exact htxLen
    · rename_i hmore
      rw [harrive.1]
      refine ⟨h.fragment, h.size, h.first, .ack m (pre ++ d) rest
        ⟨cut.sent, ?_, cut.size, harrive.2, htxLen, fun _ => ?_⟩ rfl ?_ lost hmore ?_⟩
      · rw [cut.message, List.nil_append, List.append_assoc]
      · obtain ⟨hbuf, hcur⟩ := cut.txBuf hmore
        refine ⟨hbuf, hcur.trans ?_⟩
        rw [List.length_append, List.length_nil, Nat.add_zero]
      · dsimp only
        rw [acks]
      · have hfull := full.1 hmore
        rw [List.length_append]
        dsimp only
        omega
  | idle rests holds all txLen =>
    have hsame : s.arrive p = s := by
      unfold arrive
      rw [rests.1]
    rw [hsame]
    exact h
  | ack m pre rest cut toPeer =>
    have hsame : s.arrive p = s := by
      unfold arrive
      rw [toPeer]
    rw [hsame]
    exact h
  | gone m cut toPeer =>
    have hsame : s.arrive p = s := by
      unfold arrive
      rw [toPeer]
    rw [hsame]
    exact h

/-- A frame that may be lost is a message in a single frame. -/
theorem LinkInv.loses (h : LinkInv code s) {out : List UInt8} {rest : List (List UInt8)}
    (hto : s.toPeer = out :: rest) (hagain : s.Resendable) :
    LinkInv code { s with toPeer := rest, lost := true } := by
  obtain ⟨hlastTx, hsingle, -⟩ := hagain
  cases h.phase with
  | frame m pre d left out' opCode flags cut toPeer acks lost some data mf last fits full =>
    have hm : s.tx.lastTx = m := by
      rw [cut.sent, List.getLast?_append, List.getLast?_singleton] at hlastTx
      exact (Option.some.inj hlastTx).symm
    rw [hm] at hsingle
    have hlen := congrArg List.length cut.message
    rw [List.length_append, List.length_append] at hlen
    have hd : 0 < d.length := List.length_pos_iff.2 some
    -- a message that is cut is longer than a fragment
    have hleft : left = [] := by
      by_contra hmore
      have hfull := full.1 hmore
      have hpos := List.length_pos_iff.2 hmore
      omega
    have hpre : pre = [] := by
      by_contra hmore
      have hfull := full.2 hmore
      omega
    have hrest : rest = [] := (List.cons.inj (toPeer.symm.trans hto)).2.symm
    have hmessage := cut.message
    rw [hpre, hleft, List.nil_append, List.append_nil] at hmessage
    have htxLen := cut.txLen
    have hholds := cut.holds
    rw [hpre] at hholds
    rw [hleft] at htxLen
    refine ⟨h.fragment, h.size, h.first, .gone m ⟨cut.sent, ?_, cut.size, hholds, htxLen, ?_⟩ hrest
      acks rfl ?_ hm (last.2 hleft) hsingle⟩
    · rw [List.nil_append, List.append_nil]
    · exact fun h => absurd rfl h
    · rw [hmessage]
      exact some
  | idle rests => exact absurd (hto.symm.trans rests.1) (List.cons_ne_nil _ _)
  | ack m pre left cut toPeer => exact absurd (hto.symm.trans toPeer) (List.cons_ne_nil _ _)
  | gone m cut toPeer => exact absurd (hto.symm.trans toPeer) (List.cons_ne_nil _ _)

/-- In a state with nothing on the way and nothing lost, all messages are through. -/
theorem LinkInv.rests (h : LinkInv code s) (hrests : s.Rests) :
    Holds s.rx [] ∧ s.delivered = s.sent ∧ s.tx.wscTxBufLen = 0 := by
  obtain ⟨hto, hacks, hlost⟩ := hrests
  cases h.phase with
  | idle rests holds all txLen => exact ⟨holds, all, txLen⟩
  | frame m pre d rest out opCode flags cut toPeer =>
    exact absurd (toPeer.symm.trans hto) (List.cons_ne_nil _ _)
  | ack m pre rest cut toPeer acks => exact absurd (acks.symm.trans hacks) (by decide)
  | gone m cut toPeer acks lost => exact absurd (lost.symm.trans hlost) (by decide)

/-- **A step that meets the condition.** -/
theorem LinkInv.step (hcode : code = eapCodeReq ∨ code = eapCodeRsp) (h : LinkInv code s)
    (op : WscLinkOp) (hkeeps : s.Keeps op) : LinkInv code (s.step p code op) := by
  cases op with
  | message data =>
    obtain ⟨hrests, hdata, hlen⟩ := hkeeps
    obtain ⟨hholds, hall, -⟩ := h.rests hrests
    obtain ⟨tx, rx, toPeer, acks, delivered, sent, lost⟩ := s
    obtain ⟨rfl, rfl, rfl⟩ := hrests
    cases hall
    exact linkInv_message h.fragment h.size h.first hcode hdata hlen hholds
  | nack data =>
    obtain ⟨hrests, hdata, hlast, hlen⟩ := hkeeps
    obtain ⟨hholds, hall, htxLen⟩ := h.rests hrests
    obtain ⟨tx, rx, toPeer, acks, delivered, sent, lost⟩ := s
    obtain ⟨rfl, rfl, rfl⟩ := hrests
    cases hall
    exact linkInv_nack h.fragment h.size h.first hcode hdata hlen hlast htxLen hholds
  | arrives => exact h.arrives
  | lose =>
    unfold WscLink.step
    dsimp only
    split
    · exact h
    · rename_i out rest hto
      exact h.loses hto (hkeeps (hto ▸ List.cons_ne_nil _ _))
  | ackArrives =>
    unfold WscLink.step
    dsimp only
    split
    · exact h
    · rename_i hsome
      cases h.phase with
      | ack m pre rest cut toPeer acks lost some full =>
        obtain ⟨tx, rx, toPeer, acks, delivered, sent, lost⟩ := s
        cases toPeer
        cases acks
        cases lost
        exact linkInv_fragData h.fragment h.size h.first hcode cut some full
      | idle rests => exact absurd rests.2.1 hsome
      | frame m pre d rest out opCode flags cut toPeer acks => exact absurd acks hsome
      | gone m cut toPeer acks => exact absurd acks hsome
  | ackLose =>
    unfold WscLink.step
    dsimp only
    rw [if_pos (show s.acks = 0 from hkeeps)]
    exact h
  | timer waits =>
    -- nothing is sent
    have hsame : (waits && !s.tx.eapolTimerPending) = false →
        s.step p code (.timer waits) = s := by
      intro hquiet
      unfold WscLink.step WscTx.wscEapolTimeOutAction emit
      dsimp only
      rw [hquiet, if_neg (by decide), Bool.not_false, Bool.and_true, Option.toList_none,
        List.append_nil]
    rcases hkeeps with hno | hpending | ⟨hto, hacks, hlost⟩
    · rw [hsame (by rw [hno, Bool.false_and])]
      exact h
    · rw [hsame (by rw [hpending, Bool.not_true, Bool.and_false])]
      exact h
    · cases hfires : (waits && !s.tx.eapolTimerPending) with
      | false =>
        rw [hsame hfires]
        exact h
      | true =>
        cases h.phase with
        | gone m cut toPeer acks lost some lastTx last single =>
          obtain ⟨tx, rx, toPeer, acks, delivered, sent, lost⟩ := s
          cases toPeer
          cases acks
          cases lost
          unfold WscLink.step WscTx.wscEapolTimeOutAction
          dsimp only at hfires lastTx ⊢
          rw [hfires, if_pos rfl, lastTx, Bool.not_true, Bool.and_false]
          exact linkInv_again h.fragment h.size h.first hcode cut some last single
        | idle rests => exact absurd (hlost.symm.trans rests.2.2) (by decide)
        | frame m pre d rest out opCode flags cut toPeer =>
          exact absurd (toPeer.symm.trans hto) (List.cons_ne_nil _ _)
        | ack m pre rest cut toPeer acks => exact absurd (acks.symm.trans hacks) (by decide)

end

/-- The two sides before the first message, with fragmentation on. -/
def start (wscFragSize : Nat) (bWscLastOne : Bool) : WscLink :=
  { tx := { bWscFragment := true, wscFragSize := wscFragSize, bWscLastOne := bWscLastOne } }

theorem LinkInv.start {code : UInt8} {wscFragSize : Nat} {bWscLastOne : Bool}
    (hsize : 0 < wscFragSize ∧ wscFragSize + 52 ≤ mgmtDmaBufferSize) :
    LinkInv code (start wscFragSize bWscLastOne) :=
  ⟨rfl, hsize, rfl, .idle ⟨rfl, rfl, rfl⟩ holds_empty rfl rfl⟩

/-- **From end to end.** With any size of fragments that the receiver has room for, and whatever is
sent: in a run whose steps all meet the condition, what is passed on are the messages that were
sent, in their order and each once, and with nothing on the way and nothing lost it is all of them,
in every state reached. -/
theorem delivers_of_stepsMeet (p : WscPeer) (code : UInt8)
    (hcode : code = eapCodeReq ∨ code = eapCodeRsp) (wscFragSize : Nat)
    (hsize : 0 < wscFragSize ∧ wscFragSize + 52 ≤ mgmtDmaBufferSize) (bWscLastOne : Bool)
    (ops : List WscLinkOp)
    (hmeet : Run.StepsMeet (step p code) Keeps (start wscFragSize bWscLastOne) ops)
    (done rest : List WscLinkOp) (hsplit : ops = done ++ rest) :
    (Run.final (step p code) (start wscFragSize bWscLastOne) done).Delivers := by
  rw [hsplit, Run.stepsMeet_append] at hmeet
  have hinv : LinkInv code (Run.final (step p code) (start wscFragSize bWscLastOne) done) :=
    Run.invariant (LinkInv code) (fun s op h hkeeps => h.step hcode op hkeeps)
      (LinkInv.start hsize) hmeet.1
  exact hinv.delivers

end WscLink

namespace Example

/-- A client's frames at the first interface. -/
def linkPeer : WscPeer where
  hdr := .zero lenLlcHdr
  entry := { apidx := 0, client := true, apCli := false }

/-- A message of two fragments of the smallest size that can be set. -/
def twoFragments : List UInt8 := List.replicate 130 7

/-- Two fragments and an acknowledgement arrive. -/
theorem delivers_two_fragments :
    (Run.final (WscLink.step linkPeer eapCodeRsp) (WscLink.start 128 false)
      [.message twoFragments, .arrives, .ackArrives, .arrives]).Delivers :=
  WscLink.delivers_of_stepsMeet linkPeer eapCodeRsp (.inr rfl) 128 (by decide) false
    [.message twoFragments, .arrives, .ackArrives, .arrives]
    ⟨⟨⟨rfl, rfl, rfl⟩, by simp [twoFragments], by simp [twoFragments, mgmtDmaBufferSize]⟩, trivial,
      trivial, trivial, trivial⟩ _ [] rfl

/-- The first fragment is lost and the timer has the message sent again: the peer takes the whole of
it for a fragment, and gets the second fragment behind it. -/
theorem not_delivers_lost_fragment :
    ¬ ∀ (p : WscPeer) (code : UInt8), (code = eapCodeReq ∨ code = eapCodeRsp) →
      ∀ wscFragSize : Nat, (0 < wscFragSize ∧ wscFragSize + 52 ≤ mgmtDmaBufferSize) →
      ∀ (bWscLastOne : Bool) (ops : List WscLinkOp),
        (Run.final (WscLink.step p code) (WscLink.start wscFragSize bWscLastOne) ops).Delivers := by
  intro hall
  obtain ⟨hfront, -⟩ := hall linkPeer eapCodeRsp (.inr rfl) 128 (by decide) false
    [.message twoFragments, .lose, .timer true, .arrives, .ackArrives, .arrives]
  have hdelivered : (Run.final (WscLink.step linkPeer eapCodeRsp) (WscLink.start 128 false)
      [.message twoFragments, .lose, .timer true, .arrives, .ackArrives, .arrives]).delivered =
      [twoFragments ++ [7, 7]] := by
    decide +kernel
  have hsent : (Run.final (WscLink.step linkPeer eapCodeRsp) (WscLink.start 128 false)
      [.message twoFragments, .lose, .timer true, .arrives, .ackArrives, .arrives]).sent =
      [twoFragments] := by
    decide +kernel
  rw [hdelivered, hsent] at hfront
  obtain ⟨rest, hrest⟩ := hfront
  have hlen := congrArg List.length (List.cons.inj hrest).1
  exact absurd hlen (by simp)

end Example

end Mt7601.Wsc
