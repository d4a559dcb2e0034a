/-
# WPS messages in several EAP frames: whole messages

What `WpsSmProcess` makes of a sequence of frames from any stations, on all control blocks. A
message it passes on is meant to be one message of one station: all of its fragments, each once, in
their order.

The receiver does not look for that. It takes whatever comes behind what the buffer holds, whoever
sent it and whichever message it is a part of; what does not fit it leaves out, and it takes headers
off a frame too short to have them. So a message is whole if every frame that carries data has its
headers, fits, and is the next fragment of the message that the buffer holds the beginning of
(`wholeMessages_of_stepsMeet`).
-/
import Mt7601.Wsc.SmProcess

namespace Mt7601.Wsc

/-! ## 1. Runs -/

/-- A frame given to `WpsSmProcess`, with what its sender meant it as: which of its messages it is a
part of, and which of that message's fragments it is. -/
structure WpsFrame where
  mode : CurOpMode
  entry : Option WpsEntry
  elem : WscElem
  message : Nat
  index : Nat

/-- The buffers of the control blocks and what has come of them, and beside them the frames of data
since each buffer was last emptied. -/
structure WpsState where
  rx : CtrlId → WscRx := fun _ => {}
  events : List WpsEvent := []
  pending : CtrlId → List WpsFrame := fun _ => []

namespace WpsFrame

variable (f : WpsFrame)

/-- The control block the frame is for. -/
def ctrl : CtrlId := wpsCtrl f.mode f.entry

/-- It gets to the buffer. -/
def Data : Prop := CarriesData f.elem f.entry

instance : Decidable f.Data := inferInstanceAs (Decidable (CarriesData _ _))

/-- The frames of data since the buffer was last emptied, with this one. -/
def noted (pending : List WpsFrame) : List WpsFrame :=
  if f.Data then if f.elem.mf = true then pending ++ [f] else [] else pending

/-- The frame is the next fragment of what the buffer holds the beginning of. -/
structure Continues (pending : List WpsFrame) : Prop where
  index : f.index = pending.length
  sender : ∀ g ∈ pending, g.elem.addr2 = f.elem.addr2
  message : ∀ g ∈ pending, g.message = f.message

end WpsFrame

/-- A frame given to `WpsSmProcess`. -/
def WpsState.step (s : WpsState) (f : WpsFrame) : WpsState :=
  let done := wpsSmProcess (s.rx f.ctrl) f.elem f.entry
  { rx := Function.update s.rx f.ctrl done.1
    events := s.events ++ done.2
    pending := Function.update s.pending f.ctrl (f.noted (s.pending f.ctrl)) }

/-- The condition on a frame: one that carries data has its headers, fits behind what the buffer
holds, and is the next fragment of it. -/
def WpsState.Takes (s : WpsState) (f : WpsFrame) : Prop :=
  f.Data → f.elem.wscHdrLen ≤ f.elem.msgLen - headerLen ∧
    (s.rx f.ctrl).rxBufLen + f.elem.payload.length < mgmtDmaBufferSize - 6 ∧
    f.Continues (s.pending f.ctrl)

/-- The frames are the fragments of one message of the station at `addr`, all of them, each once and
in their order: only the last says that no more come. -/
structure WholeMessage (addr : List UInt8) (fs : List WpsFrame) : Prop where
  data : ∀ f ∈ fs, f.Data
  sender : ∀ f ∈ fs, f.elem.addr2 = addr
  message : ∃ m, ∀ f ∈ fs, f.message = m
  indices : fs.map WpsFrame.index = List.range fs.length
  last : ∃ front f, fs = front ++ [f] ∧ (∀ g ∈ front, g.elem.mf = true) ∧ f.elem.mf = false

/-- **The law**: no length wraps, no copy leaves a buffer, and every message passed on is one whole
message of the station it is said to be of. -/
structure WholeMessages (done : List WpsFrame) (events : List WpsEvent) : Prop where
  bounds : ∀ ev ∈ events, ev ≠ .underflow ∧ ev ≠ .outside
  whole : ∀ addr data, WpsEvent.message addr data ∈ events →
    ∃ fs, fs.Sublist done ∧ WholeMessage addr fs ∧
      data = fs.flatMap fun f => f.elem.payload

/-! ## 2. What a frame preserves -/

/-- The buffer holds what the pending frames carry, and they are the beginning of one message. -/
structure Begun (done : List WpsFrame) (rx : WscRx) (pending : List WpsFrame) : Prop where
  holds : Holds rx (pending.flatMap fun f => f.elem.payload)
  received : pending.Sublist done
  data : ∀ f ∈ pending, f.Data
  more : ∀ f ∈ pending, f.elem.mf = true
  indices : pending.map WpsFrame.index = List.range pending.length

theorem begun_nil (done : List WpsFrame) : Begun done {} [] where
  holds := holds_empty
  received := List.nil_sublist done
  data := fun _ h => nomatch h
  more := fun _ h => nomatch h
  indices := rfl

section

variable {done pending : List WpsFrame} {rx : WscRx} {f : WpsFrame} {events : List WpsEvent}

theorem Begun.more_received (h : Begun done rx pending) (f : WpsFrame) :
    Begun (done ++ [f]) rx pending :=
  ⟨h.holds, h.received.trans (List.sublist_append_left done [f]), h.data, h.more, h.indices⟩

theorem Begun.lastId (h : Begun done rx pending) (id : UInt8) :
    Begun done { rx with lastId := id } pending :=
  ⟨h.holds.lastId id, h.received, h.data, h.more, h.indices⟩

theorem indices_append (hind : pending.map WpsFrame.index = List.range pending.length)
    (hnext : f.index = pending.length) :
    (pending ++ [f]).map WpsFrame.index = List.range (pending ++ [f]).length := by
  rw [List.map_append, hind, List.length_append, List.length_singleton, List.range_succ,
    List.map_singleton, hnext]

/-- **A frame that continues the message and says that more come**. -/
theorem Begun.append (h : Begun done rx pending) (hdata : f.Data) (hmf : f.elem.mf = true)
    (hnext : f.Continues pending) {rx' : WscRx}
    (hholds : Holds rx' ((pending.flatMap fun g => g.elem.payload) ++ f.elem.payload)) :
    Begun (done ++ [f]) rx' (pending ++ [f]) where
  holds := by
    rw [List.flatMap_append, List.flatMap_singleton]
    exact hholds
  received := h.received.append (List.Sublist.refl [f])
  data := by
    intro g hg
    rcases List.mem_append.1 hg with hg | hg
    · exact h.data g hg
    · exact List.mem_singleton.1 hg ▸ hdata
  more := by
    intro g hg
    rcases List.mem_append.1 hg with hg | hg
    · exact h.more g hg
    · exact List.mem_singleton.1 hg ▸ hmf
  indices := indices_append h.indices hnext.index

/-- **A frame that ends it**: with the pending ones it is a whole message. -/
theorem Begun.whole (h : Begun done rx pending) (hdata : f.Data) (hmf : f.elem.mf = false)
    (hnext : f.Continues pending) : WholeMessage f.elem.addr2 (pending ++ [f]) where
  data := by
    intro g hg
    rcases List.mem_append.1 hg with hg | hg
    · exact h.data g hg
    · exact List.mem_singleton.1 hg ▸ hdata
  sender := by
    intro g hg
    rcases List.mem_append.1 hg with hg | hg
    · exact hnext.sender g hg
    · rw [List.mem_singleton.1 hg]
  message := by
    refine ⟨f.message, fun g hg => ?_⟩
    rcases List.mem_append.1 hg with hg | hg
    · exact hnext.message g hg
    · rw [List.mem_singleton.1 hg]
  indices := indices_append h.indices hnext.index
  last := ⟨pending, f, rfl, h.more, hmf⟩

theorem WholeMessages.more_received (h : WholeMessages done events) (f : WpsFrame) :
    WholeMessages (done ++ [f]) events where
  bounds := h.bounds
  whole := by
    intro addr data hmem
    obtain ⟨fs, hsub, hwhole⟩ := h.whole addr data hmem
    exact ⟨fs, hsub.trans (List.sublist_append_left done [f]), hwhole⟩

theorem WholeMessages.quiet (h : WholeMessages done events) {more : List WpsEvent}
    (hquiet : ∀ ev ∈ more, ev.Quiet) : WholeMessages done (events ++ more) where
  bounds := by
    intro ev hev
    rcases List.mem_append.1 hev with hev | hev
    · exact h.bounds ev hev
    · have hq := hquiet ev hev
      exact ⟨fun heq => by rw [heq] at hq; exact hq, fun heq => by rw [heq] at hq; exact hq⟩
  whole := by
    intro addr data hmem
    rcases List.mem_append.1 hmem with hmem | hmem
    · exact h.whole addr data hmem
    · exact absurd (hquiet _ hmem) id

theorem WholeMessages.message (h : WholeMessages done events) {addr data : List UInt8}
    {fs : List WpsFrame} (hsub : fs.Sublist done) (hwhole : WholeMessage addr fs)
    (hdata : data = fs.flatMap fun g => g.elem.payload) :
    WholeMessages done (events ++ [.message addr data]) where
  bounds := by
    intro ev hev
    rcases List.mem_append.1 hev with hev | hev
    · exact h.bounds ev hev
    · rw [List.mem_singleton.1 hev]
      exact ⟨(nomatch ·), (nomatch ·)⟩
  whole := by
    intro addr' data' hmem
    rcases List.mem_append.1 hmem with hmem | hmem
    · exact h.whole addr' data' hmem
    · obtain ⟨rfl, rfl⟩ := WpsEvent.message.inj (List.mem_singleton.1 hmem)
      exact ⟨fs, hsub, hwhole, hdata⟩

end

/-- What holds after the frames `done`. -/
structure WpsInv (done : List WpsFrame) (s : WpsState) : Prop where
  begun : ∀ c, Begun done (s.rx c) (s.pending c)
  law : WholeMessages done s.events

theorem WpsInv.start : WpsInv [] {} where
  begun := fun _ => begun_nil []
  law := ⟨fun _ h => (nomatch h), fun _ _ h => (nomatch h)⟩

/-- Only the control block of the frame is touched. -/
theorem WpsInv.update {done : List WpsFrame} {s : WpsState} {f : WpsFrame} {rx : WscRx}
    {pending : List WpsFrame} {events : List WpsEvent} (h : WpsInv done s)
    (hbegun : Begun (done ++ [f]) rx pending) (hlaw : WholeMessages (done ++ [f]) events) :
    WpsInv (done ++ [f])
      ⟨Function.update s.rx f.ctrl rx, events, Function.update s.pending f.ctrl pending⟩ where
  begun := by
    intro c
    rcases eq_or_ne c f.ctrl with rfl | hne
    · dsimp only
      rw [Function.update_self, Function.update_self]
      exact hbegun
    · dsimp only
      rw [Function.update_of_ne hne, Function.update_of_ne hne]
      exact (h.begun c).more_received f
  law := hlaw

/-- **A frame that meets the condition.** -/
theorem WpsInv.step {done : List WpsFrame} {s : WpsState} {f : WpsFrame} (h : WpsInv done s)
    (htakes : s.Takes f) : WpsInv (done ++ [f]) (s.step f) := by
  have hbegun := h.begun f.ctrl
  have hlaw := h.law.more_received f
  unfold WpsState.step
  dsimp only
  rcases wpsSmProcess_cases (s.rx f.ctrl) f.elem f.entry with ⟨hdata, id, hproc⟩ | ⟨hno, haside⟩
  · obtain ⟨hhdr, hfit, hnext⟩ := htakes hdata
    rw [hbegun.holds.len] at hfit
    have hdone := wscData_holds (hbegun.holds.lastId id) hhdr hfit
    rw [hproc]
    unfold WpsFrame.noted
    rw [if_pos (show f.Data from hdata)]
    split at hdone
    · rename_i hmf
      rw [if_pos hmf, hdone.2]
      refine h.update (hbegun.append hdata hmf hnext hdone.1) (hlaw.quiet fun ev hev => ?_)
      rw [List.mem_singleton.1 hev]
      trivial
    · rename_i hmf
      have hmf' : f.elem.mf = false := Bool.eq_false_of_not_eq_true hmf
      rw [if_neg hmf, hdone.2]
      refine h.update ⟨hdone.1, List.nil_sublist _, fun _ h => (nomatch h),
        fun _ h => (nomatch h), rfl⟩ ?_
      refine hlaw.message (hbegun.received.append (List.Sublist.refl [f]))
        (hbegun.whole hdata hmf' hnext) ?_
      rw [List.flatMap_append, List.flatMap_singleton]
  · obtain ⟨⟨id, hrx⟩, hquiet⟩ := haside
    unfold WpsFrame.noted
    rw [if_neg (show ¬ f.Data from hno), hrx]
    exact h.update ((hbegun.lastId id).more_received f) (hlaw.quiet hquiet)

/-- **Whole messages.** In a run whose frames of data all have their headers, fit, and are the next
fragment of what their control block's buffer holds, no length wraps, no copy leaves a buffer and
every message passed on is one whole message of one station, in every state reached. -/
theorem wholeMessages_of_stepsMeet (fs : List WpsFrame)
    (hmeet : Run.StepsMeet WpsState.step WpsState.Takes {} fs) (done rest : List WpsFrame)
    (hsplit : fs = done ++ rest) : WholeMessages done (Run.final WpsState.step {} done).events := by
  rw [hsplit, Run.stepsMeet_append] at hmeet
  have hinv := Run.invariant_history WpsInv (fun done s f h hok => h.step hok) WpsInv.start hmeet.1
  rw [List.nil_append] at hinv
  exact hinv.law

namespace Example

/-- The frame of a station with a response that has WSC data, from the 802.11 header on. -/
def rspOctets (addr2 : List UInt8) (flags : UInt8) (data : List UInt8) : List UInt8 :=
  List.replicate 10 0 ++ addr2 ++ List.replicate 16 0 ++
    [1, 0, 0, UInt8.ofNat (14 + data.length), eapCodeRsp, 0, 0, UInt8.ofNat (14 + data.length),
      eapTypeWsc] ++
    wscSmi ++ wscVendorType ++ [wscOpcodeMsg, flags] ++ data

def rspElem (addr2 : List UInt8) (flags : UInt8) (data : List UInt8)
    (hfits : (rspOctets addr2 flags data).length ≤ mgmtDmaBufferSize) : WscElem where
  msgType := .eapolPacketMsg
  msg := Mem.read (rspOctets addr2 flags data) 0 mgmtDmaBufferSize
  msgLen := (rspOctets addr2 flags data).length
  room := Mem.length_read _ _ _
  fits := hfits

/-- A client of the first interface. -/
def client : WpsEntry := { apidx := 0, client := true, apCli := false }

def stationA : List UInt8 := [2, 0, 0, 0, 0, 0xa]
def stationB : List UInt8 := [2, 0, 0, 0, 0, 0xb]

/-- The first fragment of a message of one station, its second one, and a message of another
station. -/
def firstOfA : WpsFrame :=
  ⟨.ap, some client, rspElem stationA wscMsgFlagMf [1] (by decide), 0, 0⟩
def secondOfA : WpsFrame :=
  ⟨.ap, some client, rspElem stationA 0 [2] (by decide), 0, 1⟩
def wholeOfB : WpsFrame :=
  ⟨.ap, some client, rspElem stationB 0 [2] (by decide), 0, 0⟩

/-- One message of two fragments. -/
theorem wholeMessages_two_fragments :
    WholeMessages [firstOfA, secondOfA]
      (Run.final WpsState.step {} [firstOfA, secondOfA]).events := by
  refine wholeMessages_of_stepsMeet [firstOfA, secondOfA] ⟨fun _ => ?_, fun _ => ?_, trivial⟩
    [firstOfA, secondOfA] [] rfl
  · exact ⟨by decide, by decide, rfl, fun _ h => (nomatch h), fun _ h => (nomatch h)⟩
  · have hpending : (WpsState.step {} firstOfA).pending secondOfA.ctrl = [firstOfA] := by
      rfl
    rw [hpending]
    refine ⟨by decide, by decide, rfl, fun g hg => ?_, fun g hg => ?_⟩
    · rw [List.mem_singleton.1 hg]
      decide
    · rw [List.mem_singleton.1 hg]
      rfl

/-- A message of one station with a fragment of another in front. -/
theorem not_wholeMessages_two_stations :
    ¬ ∀ fs done rest : List WpsFrame, fs = done ++ rest →
      WholeMessages done (Run.final WpsState.step {} done).events := by
  intro hall
  have hlaw := hall [firstOfA, wholeOfB] [firstOfA, wholeOfB] [] rfl
  have hevents : (Run.final WpsState.step {} [firstOfA, wholeOfB]).events =
      [.fragAck, .message stationB [1, 2]] := by
    decide
  obtain ⟨fs, hsub, hwhole, hdata⟩ := hlaw.whole stationB [1, 2] (by rw [hevents]; simp)
  -- none of the frames is the one of the other station
  have hno : firstOfA ∉ fs := fun hmem =>
    absurd (hwhole.sender firstOfA hmem) (by decide)
  have hrest : fs.Sublist [wholeOfB] := by
    cases hsub with
    | cons _ h => exact h
    | cons_cons _ h => exact absurd (List.mem_cons_self) hno
  have hlen : (fs.flatMap fun f => f.elem.payload).length ≤
      ([wholeOfB].flatMap fun f => f.elem.payload).length :=
    (hrest.flatMap _).length_le
  rw [← hdata] at hlen
  exact absurd hlen (by decide)

end Example

end Mt7601.Wsc
