/-
# The power-save buffers of one station: legacy queue, U-APSD queues and the held-back last frame

A frame for a sleeping station waits in the entry's legacy queue or, when its access category is
delivery enabled, in the category's U-APSD queue. A PS-Poll takes one legacy frame, a trigger frame
starts a service period over the U-APSD queues, waking up takes everything, and several time-outs
release what was never fetched. The station's bit in the TIM is set by `rtmpInsertPsQueue` alone and
cleared in five other functions.

The state is the station's `MAC_TABLE_ENTRY` together with where its frames go: the four software TX
queues, the USB ring behind them, and the frames handed to `RELEASE_NDIS_PACKET`.
-/
import Mathlib.Logic.Function.Basic
import Mt7601.Ba.Defs

namespace Mt7601.Data

/-! ## 1. Frames and the entry -/

/-- The access categories, `QID_AC_BE` to `QID_AC_VO`. -/
inductive Ac where
  | be | bk | vi | vo
  deriving DecidableEq, Repr

/-- What the delivery code reads and writes of a frame's control block; `queIdx` is the queue index
the frame was handed over with. -/
structure PsPacket where
  id : Nat
  queIdx : Ac
  moreData : Bool
  uapsd : Bool
  queId : Ac
  eosp : Bool
  deriving DecidableEq, Repr

/-- A frame as the stack hands it over: its control block is zeroed. -/
def PsPacket.fresh (i : Nat) (queIdx : Ac) : PsPacket :=
  ⟨i, queIdx, false, false, .be, false⟩

inductive PsMode where
  | active | save
  deriving DecidableEq, Repr

structure PsStation where
  aid : Nat
  psMode : PsMode
  /-- `bAPSDCapablePerAC` and `bAPSDDeliverEnabledPerAC`, which `UAPSD_AssocParse` sets alike -/
  uapsd : Ac → Bool
  maxSPLength : Nat
  psQueue : List PsPacket
  psQIdleCount : Nat
  uapsdQueue : Ac → List PsPacket
  uapsdQIdleCount : Nat
  eospFrame : Option PsPacket
  uapsdTxNum : Nat
  spStart : Bool
  tagOffset : Ac → Nat
  /-- the station's bit of `TimBitmaps` -/
  tim : Bool
  txSwQueue : Ac → List PsPacket
  /-- the frames written to the USB ring, each with the offset behind it -/
  ring : Ac → List (PsPacket × Nat)
  completed : List PsPacket
  released : List PsPacket
  /-- the (QoS) Null frames sent in answer to a poll or a trigger -/
  nullFrames : Nat

/-- A station that has just associated, with the U-APSD bits and the service period length of its
QoS information field. -/
def PsStation.associated (aid : Nat) (uapsd : Ac → Bool) (maxSPLength : Nat) : PsStation where
  aid := aid
  psMode := .active
  uapsd := uapsd
  maxSPLength := maxSPLength
  psQueue := []
  psQIdleCount := 0
  uapsdQueue := fun _ => []
  uapsdQIdleCount := 0
  eospFrame := none
  uapsdTxNum := 0
  spStart := false
  tagOffset := fun _ => 0
  tim := false
  txSwQueue := fun _ => []
  ring := fun _ => []
  completed := []
  released := []
  nullFrames := 0

def maxPacketsInPsQueue : Nat := 128
def maxPacketsInUapsdQueue : Nat := 16

/-- `fCLIENT_STATUS_APSD_CAPABLE`: some category is a U-APSD one. -/
def PsStation.apsdCapable (s : PsStation) : Bool :=
  s.uapsd .be || s.uapsd .bk || s.uapsd .vi || s.uapsd .vo

/-- `bAPSDAllAC` -/
def PsStation.allAc (s : PsStation) : Bool :=
  s.uapsd .be && s.uapsd .bk && s.uapsd .vi && s.uapsd .vo

/-- `InsertTailQueueAc` on a software TX queue. -/
def PsStation.insertSw (s : PsStation) (ac : Ac) (p : PsPacket) : PsStation :=
  { s with txSwQueue := Function.update s.txSwQueue ac (s.txSwQueue ac ++ [p]) }

/-- `WLAN_MR_TIM_BIT_CLEAR` behind the check of the AID. -/
def PsStation.clearTim (s : PsStation) : PsStation :=
  if 0 < s.aid ∧ s.aid < Ba.maxLenOfMacTable then { s with tim := false } else s

/-! ## 2. Buffering -/

def uapsdPacketEnqueue (s : PsStation) (p : PsPacket) (ac : Ac) : PsStation :=
  if (s.uapsdQueue ac).length ≥ maxPacketsInUapsdQueue then
    { s with released := s.released ++ [p] }
  else
    { s with uapsdQueue := Function.update s.uapsdQueue ac (s.uapsdQueue ac ++ [p]) }

/-- `UAPSD_MR_IS_UAPSD_AC` -/
def PsStation.isUapsdAc (s : PsStation) (ac : Ac) : Bool :=
  s.apsdCapable && s.uapsd ac

/-- `UAPSD_MR_IS_NOT_TIM_BIT_NEEDED_HANDLED` -/
def PsStation.notTimBitNeeded (s : PsStation) (queIdx : Ac) : Bool :=
  s.apsdCapable && (!s.uapsd .vo || !s.uapsd .vi || !s.uapsd .be || !s.uapsd .bk) && s.uapsd queIdx

/-- The TIM part of `RtmpInsertPsQueue`. -/
def PsStation.announce (s : PsStation) (queIdx : Ac) : PsStation :=
  if s.notTimBitNeeded queIdx then s else { s with tim := true }

def rtmpInsertPsQueue (s : PsStation) (p : PsPacket) : PsStation :=
  if s.isUapsdAc p.queIdx then
    -- the caller is told of success even when the full queue has just released the frame
    (uapsdPacketEnqueue s p p.queIdx).announce p.queIdx
  else if s.psQueue.length ≥ maxPacketsInPsQueue then
    { s with released := s.released ++ [p] }
  else
    { s with psQueue := s.psQueue ++ [p] }.announce p.queIdx

/-- `RtmpCleanupPsQueue` on the legacy queue. -/
def rtmpCleanupPsQueue (s : PsStation) : PsStation :=
  { s with psQueue := [], released := s.released ++ s.psQueue }

/-- `RtmpCleanupPsQueue` on the U-APSD queue of one category. -/
def cleanupUapsdQueue (s : PsStation) (ac : Ac) : PsStation :=
  { s with
    uapsdQueue := Function.update s.uapsdQueue ac []
    released := s.released ++ s.uapsdQueue ac }

/-- `RtmpCleanupPsQueue` on the four U-APSD queues in turn. -/
def cleanupUapsdQueues (s : PsStation) : PsStation :=
  [Ac.be, .bk, .vi, .vo].foldl cleanupUapsdQueue s

/-- The held-back frame is released if there is one. -/
def releaseEosp (s : PsStation) : PsStation :=
  { s with eospFrame := none, released := s.released ++ s.eospFrame.toList }

/-- `UAPSD_MR_ENTRY_RESET` -/
def uapsdEntryReset (s : PsStation) : PsStation :=
  { releaseEosp (cleanupUapsdQueues s) with uapsdTxNum := 0, spStart := false }

/-! ## 3. PS-Poll and waking up -/

/-- All frames of a category's U-APSD queue to its software queue. -/
def deliverUapsdQueue (s : PsStation) (ac : Ac) : PsStation :=
  { s with
    uapsdQueue := Function.update s.uapsdQueue ac []
    txSwQueue := Function.update s.txSwQueue ac (s.txSwQueue ac ++ s.uapsdQueue ac) }

/-- The held-back frame to the software queue it is meant for. -/
def sendEosp (s : PsStation) (p : PsPacket) : PsStation :=
  { s.insertSw p.queId p with eospFrame := none, uapsdTxNum := 0 }

def uapsdAllPacketDeliver (s : PsStation) : PsStation :=
  [Ac.vo, .vi, .bk, .be].foldl deliverUapsdQueue
    (match s.eospFrame with
      | some p => sendEosp s p
      | none => s)

/-- The legacy frames of a station that wakes up go to the BE queue as they are. -/
def deliverPsQueue (s : PsStation) : PsStation :=
  { s with
    psQueue := []
    txSwQueue := Function.update s.txSwQueue .be (s.txSwQueue .be ++ s.psQueue) }

/-- One PS-Poll of a station in power save: the oldest legacy frame, or a Null frame. -/
def answerPsPoll (s : PsStation) : PsStation :=
  match s.psQueue with
  | [] => { s with nullFrames := s.nullFrames + 1 }
  | p :: rest =>
      { s with psQueue := rest }.insertSw .be
        (if rest.length ≥ 1 then { p with moreData := true } else p)

/-- No legacy frame is left: the TIM bit is cleared and the idle count starts again. -/
def endPsPoll (s : PsStation) : PsStation :=
  if (0 < s.aid ∧ s.aid < Ba.maxLenOfMacTable) ∧ s.psQueue.length = 0 then
    { s with tim := false, psQIdleCount := 0 }
  else s

/-- A station that wakes up gets everything. -/
def deliverAwake (s : PsStation) : PsStation :=
  deliverPsQueue (uapsdEntryReset (uapsdAllPacketDeliver s))

def rtmpHandleRxPsPoll (s : PsStation) (sameAddr isActive : Bool) : PsStation :=
  if !sameAddr then s
  else if !isActive && s.allAc then s   -- all categories are U-APSD: a PS-Poll is not answered
  else endPsPoll (if isActive then deliverAwake s else answerPsPoll s)

def rtmpPsIndicate (s : PsStation) (sameAddr : Bool) (psm : PsMode) : PsStation :=
  if s.psMode = .save ∧ psm = .active then
    rtmpHandleRxPsPoll { s with psMode := psm } sameAddr true
  else { s with psMode := psm }

/-! ## 4. Trigger frames -/

/-- What the loops of `UAPSD_TriggerFrameHandle` carry along: the entry, `pQuedPkt` with
`pLastAcSwQue`, `TxPktNum` and `FlgQueEmpty`. -/
structure SpLoop where
  station : PsStation
  quedPkt : Option (PsPacket × Ac)
  txPktNum : Nat
  flgQueEmpty : Bool

/-- The frame taken last joins its software queue when the next one is taken. -/
def insertQued (s : PsStation) : Option (PsPacket × Ac) → PsStation
  | some (p, ac) => s.insertSw ac p
  | none => s

/-- `RemoveHeadQueue` on a category's U-APSD queue, of which `rest` stays. -/
def PsStation.removeHead (s : PsStation) (ac : Ac) (rest : List PsPacket) : PsStation :=
  { s with uapsdQueue := Function.update s.uapsdQueue ac rest }

/-- The inner loop: frames leave the category's queue, whose content the last argument is, up to
`spMaxLen`. -/
def takeFrames (spMaxLen : Nat) (ac : Ac) (l : SpLoop) : List PsPacket → SpLoop
  | [] => l
  | p :: rest =>
      if spMaxLen ≠ 0 ∧ l.txPktNum ≥ spMaxLen then { l with flgQueEmpty := false }
      else
        takeFrames spMaxLen ac
          { station := (insertQued l.station l.quedPkt).removeHead ac rest
            quedPkt := some ({ p with moreData := true, uapsd := true, queId := ac }, ac)
            txPktNum := l.txPktNum + 1
            flgQueEmpty := l.flgQueEmpty } rest

/-- The outer loop, from the highest priority down; it stops at the first category that could not
be emptied. -/
def takeAcs (spMaxLen : Nat) (l : SpLoop) : List Ac → SpLoop
  | [] => l
  | ac :: acs =>
      if l.station.uapsd ac = false then takeAcs spMaxLen l acs
      else
        let l' := takeFrames spMaxLen ac l (l.station.uapsdQueue ac)
        if l'.flgQueEmpty = false then l' else takeAcs spMaxLen l' acs

/-- `AcPriority`, highest first. -/
def acPriority : List Ac := [.vo, .vi, .be, .bk]

/-- `SpLenMap` -/
def spLenMap : Nat → Nat
  | 1 => 2
  | 2 => 4
  | 3 => 6
  | _ => 0

/-- `MapUserPriorityToAccessCategory`, with an impossible priority taken for 1. -/
def acOfUserPriority : Nat → Ac
  | 0 | 3 => .be
  | 4 | 5 => .vi
  | 6 | 7 => .vo
  | _ => .bk

/-- What becomes of the frame taken last: alone it ends the service period at once, behind others
it is held back until they are on the air. -/
def closeLoop (l : SpLoop) : PsStation :=
  match l.quedPkt with
  | none =>
      { l.station with
        spStart := true, eospFrame := none, uapsdTxNum := 0,
        nullFrames := l.station.nullFrames + 1 }
  | some (p, ac) =>
      let last :=
        { p with moreData := if l.flgQueEmpty then false else p.moreData, eosp := true }
      if l.txPktNum ≤ 1 then
        { l.station.insertSw ac last with spStart := true, eospFrame := none, uapsdTxNum := 0 }
      else
        { l.station with
          spStart := true, eospFrame := some last, uapsdTxNum := l.txPktNum - 1 }

/-- The frames a service period takes from the U-APSD queues of `s`. -/
def spLoop (s : PsStation) : SpLoop :=
  takeAcs (spLenMap s.maxSPLength) ⟨s, none, 0, true⟩ acPriority

/-- `MaxSPLength` should be 0 to 3. -/
def resetSpLength (s : PsStation) : PsStation :=
  if s.maxSPLength ≥ 4 then { s with maxSPLength := 0 } else s

/-- What a trigger frame of a trigger-enabled category starts. -/
def startServicePeriod (s : PsStation) : PsStation :=
  let l := spLoop s
  let t := closeLoop l
  { (if s.allAc && l.flgQueEmpty then t.clearTim else t) with uapsdQIdleCount := 0 }

def uapsdTriggerFrameHandle (s : PsStation) (upOfFrame : Nat) : PsStation :=
  if s.spStart then s
  else if (resetSpLength s).uapsd (acOfUserPriority upOfFrame) = false then resetSpLength s
  else startServicePeriod (resetSpLength s)

/-- The loop body of `UAPSD_PsPollHandle`: the head of the category's queue if no frame has been
taken yet. -/
def takeHead (s : PsStation) (quedPkt : Option (PsPacket × Ac)) (ac : Ac) :
    PsStation × Option (PsPacket × Ac) :=
  match quedPkt, s.uapsdQueue ac with
  | none, p :: rest =>
      (s.removeHead ac rest,
        some ({ p with moreData := true, uapsd := true, queId := ac }, ac))
  | q, _ => (s, q)

/-- The loop of `UAPSD_PsPollHandle`, up to the first queue that still holds a frame; the flag is
`FlgQueEmpty`. -/
def takeOne (s : PsStation) (quedPkt : Option (PsPacket × Ac)) :
    List Ac → PsStation × Option (PsPacket × Ac) × Bool
  | [] => (s, quedPkt, true)
  | ac :: acs =>
      let t := takeHead s quedPkt ac
      if t.1.uapsdQueue ac ≠ [] then (t.1, t.2, false) else takeOne t.1 t.2 acs

/-- The frame `UAPSD_PsPollHandle` has taken goes to its software queue. -/
def sendQued (s : PsStation) (flgQueEmpty : Bool) : Option (PsPacket × Ac) → PsStation
  | some (p, ac) => s.insertSw ac { p with moreData := if flgQueEmpty then false else p.moreData }
  | none => s

/-- `UAPSD_PsPollHandle` behind its checks. -/
def answerUapsdPsPoll (s : PsStation) : PsStation :=
  let r := takeOne s none acPriority
  let t := sendQued r.1 r.2.2 r.2.1
  { (if r.2.2 then t.clearTim else t) with uapsdQIdleCount := 0 }

def uapsdPsPollHandle (s : PsStation) : PsStation :=
  if s.allAc = false then s else if s.spStart then s else answerUapsdPsPoll s

/-! ## 5. The USB ring -/

def uapsdTagFrame (s : PsStation) (p : PsPacket) (pktOffset : Nat) : PsStation :=
  if s.spStart = false then s
  else if p.uapsd then { s with tagOffset := Function.update s.tagOffset p.queId pktOffset }
  else s

/-- The tag lies between the two positions of the transfer, which may have wrapped around. -/
def tagInBulk (tag bulkStartPos bulkEnPos : Nat) : Prop :=
  (tag ≥ bulkStartPos ∧ tag ≤ bulkEnPos) ∨ (bulkEnPos < bulkStartPos ∧ tag ≥ bulkStartPos) ∨
    (bulkEnPos < bulkStartPos ∧ tag ≤ bulkEnPos)

instance (tag bulkStartPos bulkEnPos : Nat) : Decidable (tagInBulk tag bulkStartPos bulkEnPos) :=
  inferInstanceAs (Decidable (_ ∨ _))

/-- Every category's tag is clear. -/
def PsStation.untagged (s : PsStation) : Prop :=
  s.tagOffset .be = 0 ∧ s.tagOffset .bk = 0 ∧ s.tagOffset .vi = 0 ∧ s.tagOffset .vo = 0

instance (s : PsStation) : Decidable s.untagged := inferInstanceAs (Decidable (_ ∧ _))

/-- What `UAPSD_UnTagFrame` does once a category's tag has been cleared. -/
def afterUnTag (s : PsStation) : PsStation :=
  if s.uapsdTxNum = 0 then { releaseEosp s with spStart := false }
  else if s.untagged then
    match s.eospFrame with
    | some p => sendEosp s p
    | none => { s with spStart := false, uapsdTxNum := 0 }
  else s

def uapsdUnTagFrame (s : PsStation) (ac : Ac) (bulkStartPos bulkEnPos : Nat) : PsStation :=
  if s.spStart ∧ s.tagOffset ac ≠ 0 then
    if tagInBulk (s.tagOffset ac) bulkStartPos bulkEnPos then
      afterUnTag { s with tagOffset := Function.update s.tagOffset ac 0 }
    else s
  else s

/-- `RTMPDeQueuePacket` writes the head of a software queue to the ring and tags it. -/
def writeRing (s : PsStation) (ac : Ac) (offset : Nat) : PsStation :=
  match s.txSwQueue ac with
  | [] => s
  | p :: rest =>
      uapsdTagFrame
        { s with
          txSwQueue := Function.update s.txSwQueue ac rest
          ring := Function.update s.ring ac (s.ring ac ++ [(p, offset)]) } p offset

/-- The oldest `n` frames of a category's ring are on the air; the transfer that carried them runs
between the two positions. -/
def bulkOutComplete (s : PsStation) (ac : Ac) (n bulkStartPos bulkEnPos : Nat) : PsStation :=
  uapsdUnTagFrame
    { s with
      ring := Function.update s.ring ac ((s.ring ac).drop n)
      completed := s.completed ++ ((s.ring ac).take n).map Prod.fst } ac bulkStartPos bulkEnPos

/-! ## 6. Closing and time-outs -/

/-- `UAPSD_SP_Close`, called when the QoS Null frame that ends a service period is on the air. -/
def uapsdSpClose (s : PsStation) : PsStation :=
  if s.psMode = .save ∧ s.spStart then
    { releaseEosp s with uapsdTxNum := 0, spStart := false, tagOffset := fun _ => 0 }
  else s

/-- Some U-APSD queue holds a frame. -/
def PsStation.uapsdPending (s : PsStation) : Prop :=
  s.uapsdQueue .be ≠ [] ∨ s.uapsdQueue .bk ≠ [] ∨ s.uapsdQueue .vi ≠ [] ∨ s.uapsdQueue .vo ≠ []

instance (s : PsStation) : Decidable s.uapsdPending := inferInstanceAs (Decidable (_ ∨ _))

/-- All U-APSD frames are released and the service period is over. -/
def dropUapsd (s : PsStation) : PsStation :=
  { releaseEosp (if s.uapsdPending then cleanupUapsdQueues s else s) with
    uapsdTxNum := 0, spStart := false, uapsdQIdleCount := 0 }

/-- The time-out branch of `UAPSD_QueueMaintenance`. -/
def uapsdTimeOut (s : PsStation) : PsStation :=
  let t := dropUapsd s
  if t.psQueue.length = 0 then { t with tim := false } else t

def uapsdQueueMaintenance (s : PsStation) (notMaintain : Bool) (msduLifeTime : Nat) :
    PsStation :=
  if notMaintain then s
  else if s.psMode ≠ .save then s
  else if s.uapsdPending ∨ s.eospFrame ≠ none then
    let t : PsStation := { s with uapsdQIdleCount := s.uapsdQIdleCount + 1 }
    if t.uapsdQIdleCount > msduLifeTime then uapsdTimeOut t else t
  else { s with uapsdQIdleCount := 0 }

/-- The legacy part of `MacTableMaintenance`. -/
def collectPsQueue (s : PsStation) : PsStation :=
  if s.psQueue ≠ [] then
    let t : PsStation := { s with psQIdleCount := s.psQIdleCount + 1 }
    if t.psQIdleCount > 2 then { rtmpCleanupPsQueue t with psQIdleCount := 0, tim := false } else t
  else { s with psQIdleCount := 0 }

/-! ## 7. Runs -/

/-- What can happen to one station's entry. -/
inductive PsEvent where
  | insert (id : Nat) (queIdx : Ac)
  | psPoll (sameAddr : Bool)
  | psIndicate (sameAddr : Bool) (psm : PsMode)
  | trigger (upOfFrame : Nat)
  | uapsdPsPoll
  | write (ac : Ac) (offset : Nat)
  | complete (ac : Ac) (n bulkStartPos bulkEnPos : Nat)
  | spClose
  | maintenance (notMaintain : Bool) (msduLifeTime : Nat)
  | collect
  | cleanup
  | deliverAll
  | entryReset

def psStep (s : PsStation) : PsEvent → PsStation
  | .insert i queIdx => rtmpInsertPsQueue s (.fresh i queIdx)
  | .psPoll sameAddr => rtmpHandleRxPsPoll s sameAddr false
  | .psIndicate sameAddr psm => rtmpPsIndicate s sameAddr psm
  | .trigger upOfFrame => uapsdTriggerFrameHandle s upOfFrame
  | .uapsdPsPoll => uapsdPsPollHandle s
  | .write ac offset => writeRing s ac offset
  | .complete ac n bulkStartPos bulkEnPos => bulkOutComplete s ac n bulkStartPos bulkEnPos
  | .spClose => uapsdSpClose s
  | .maintenance notMaintain msduLifeTime => uapsdQueueMaintenance s notMaintain msduLifeTime
  | .collect => collectPsQueue s
  | .cleanup => rtmpCleanupPsQueue s
  | .deliverAll => uapsdAllPacketDeliver s
  | .entryReset => uapsdEntryReset s

end Mt7601.Data
