/-
# The recipient side of a Block-Ack session

The model of `common/ba_action.c` as far as a received A-MPDU subframe can reach: the reorder
list of one session, the pool its blocks come from, the session table, and the operations that
move frames between them. Definitions keep the source's names.

What is abstracted. A network buffer is a handle (`Packet`): the list logic never looks inside
it. The free list of `mpdu_blk_pool` is represented by its length, since a block is zeroed when it
leaves the pool. Spin locks are dropped: each operation below is one critical section after the
other on the same processor. The timers of a session (`RECBATimer`, `ORIBATimer`) and the ASIC's
own session mask do not touch the list and are left out.
-/
import Mathlib.Data.Fin.Basic
import Mt7601.Lib.Sizes

namespace Mt7601.Ba

/-! ## 1. Sequence numbers and time -/

/-- The 12-bit `Sequence` field of an 802.11 header. -/
abbrev SeqNo := Fin 4096

/-- `MAXSEQ` -/
def maxSeq : Nat := 0xFFF

/-- `RESET_RCV_SEQ`: no frame of the session has been indicated yet. -/
def resetRcvSeq : Nat := 0xFFFF

/-- `SEQ_STEPONE` -/
def seqStepOne (seq₁ seq₂ limit : Nat) : Bool :=
  seq₁ == (seq₂ + 1) &&& limit

/-- `SEQ_SMALLER`: the difference is an `int`, so it is taken modulo `2 ^ 32` and may be negative;
the macro keeps its bit `(limit + 1) / 2`. -/
def seqSmaller (seq₁ seq₂ limit : Nat) : Bool :=
  (BitVec.ofNat 32 seq₁ - BitVec.ofNat 32 seq₂) &&& BitVec.ofNat 32 ((limit + 1) >>> 1) != 0

/-- `ULONG`, the type of system times. -/
abbrev Ulong := BitVec 64

/-- `RTMP_TIME_AFTER`: the signed difference decides, so the clock may wrap. -/
def rtmpTimeAfter (a b : Ulong) : Bool :=
  (b - a).slt 0

/-- `OS_HZ`, the tick rate a kernel is built with. -/
structure OsHz where
  val : Nat
  le : val ≤ 10000

theorem OsHz.hundred_le : 100 ≤ 10000 := by decide

/-- `REORDERING_PACKET_TIMEOUT`, in ticks. -/
def OsHz.reorderingPacketTimeout (hz : OsHz) : Nat := 100 * hz.val / 1000

/-- `MAX_REORDERING_PACKET_TIMEOUT`, in ticks. -/
def OsHz.maxReorderingPacketTimeout (hz : OsHz) : Nat := 3000 * hz.val / 1000

/-- `REC_BA_SESSION_IDLE_TIMEOUT` -/
def recBaSessionIdleTimeout : Nat := 1000

/-! ## 2. The reorder list -/

/-- The handle of a network buffer (`PNDIS_PACKET`). -/
abbrev Packet := Nat

/-- `struct reordering_mpdu`, without the link. -/
structure ReorderingMpdu where
  pPacket : Packet
  sequence : SeqNo
  bAMSDU : Bool
  opMode : UInt8
  deriving DecidableEq, Repr

/-- `struct reordering_list`: the linked blocks from `next` on, and the separate count `qlen`. -/
structure ReorderingList where
  next : List ReorderingMpdu := []
  qlen : Nat := 0
  deriving DecidableEq, Repr

/-- The scan of `ba_reordering_mpdu_insertsorted`; `none` is its `return FALSE`. -/
def insertsortedScan : List ReorderingMpdu → ReorderingMpdu → Option (List ReorderingMpdu)
  | [], mpdu => some [mpdu]
  | blk :: rest, mpdu =>
    if seqSmaller blk.sequence mpdu.sequence maxSeq then
      (insertsortedScan rest mpdu).map (blk :: ·)
    else if blk.sequence = mpdu.sequence then none
    else some (mpdu :: blk :: rest)

def baReorderingMpduInsertsorted (list : ReorderingList) (mpdu : ReorderingMpdu) :
    Option ReorderingList :=
  (insertsortedScan list.next mpdu).map fun next => ⟨next, list.qlen + 1⟩

/-- The count decides whether there is something to take, and is decremented before the head is
looked at. -/
def baDequeue (list : ReorderingList) : Option ReorderingMpdu × ReorderingList :=
  if list.qlen = 0 then (none, list)
  else
    match list.next with
    | [] => (none, { list with qlen := list.qlen - 1 })
    | blk :: rest => (some blk, ⟨rest, list.qlen - 1⟩)

def baReorderingMpduProbe (list : ReorderingList) : Option ReorderingMpdu :=
  list.next.head?

/-! ## 3. A session and what its functions share -/

/-- `REC_BLOCKACK_STATUS` -/
inductive RecBlockackStatus
  | recipientNone
  | recipientUsed
  | recipientHandleRes
  | recipientAccept
  deriving DecidableEq, Repr

/-- `BA_REC_ENTRY` -/
structure BaRecEntry where
  wcid : Nat := 0
  tid : Fin 16 := 0
  baWinSize : UInt8 := 0
  lastIndSeq : Nat := 0
  timeOutValue : Nat := 0
  lastIndSeqAtTimer : Ulong := 0
  nDropPacket : Ulong := 0
  rcvSeq : Nat := 0
  recBaStatus : RecBlockackStatus := .recipientNone
  list : ReorderingList := {}
  deriving Repr

/-- The receive descriptor of one subframe, the part of `RX_BLK` that is read here. -/
structure RxBlk where
  sequence : SeqNo
  wcid : Nat
  tid : Fin 16
  dataSize : Nat
  amsdu : Bool
  eap : Bool
  opMode : UInt8
  pRxPacket : Packet
  deriving DecidableEq, Repr

/-- What becomes of a packet: handed up out of the list, handed up directly, or released. -/
inductive Disposal
  | announce (mpdu : ReorderingMpdu)
  | legacy (blk : RxBlk)
  | release (packet : Packet)
  deriving DecidableEq, Repr

/-- The part of the adapter a session's functions work on: its entry, the length of the pool's free
list, and what has become of the packets so far. -/
structure Rx where
  entry : BaRecEntry
  freelist : Nat
  log : List Disposal
  deriving Repr

namespace Rx

def setLastIndSeq (rx : Rx) (seq : Nat) : Rx :=
  { rx with entry := { rx.entry with lastIndSeq := seq } }

def setLastIndSeqAtTimer (rx : Rx) (now : Ulong) : Rx :=
  { rx with entry := { rx.entry with lastIndSeqAtTimer := now } }

def setList (rx : Rx) (list : ReorderingList) : Rx :=
  { rx with entry := { rx.entry with list := list } }

def note (rx : Rx) (d : Disposal) : Rx :=
  { rx with log := rx.log ++ [d] }

end Rx

/-- The body the draining loops share: dequeue, announce the packet, give the block back. `none`
is the null block of an empty list. -/
def indicateHead (rx : Rx) : Option (ReorderingMpdu × Rx) :=
  match baDequeue rx.entry.list with
  | (none, _) => none
  | (some blk, list) =>
    some (blk, { (rx.setList list).note (.announce blk) with freelist := rx.freelist + 1 })

/-! ## 4. Draining the list -/

/-- The loop of `ba_indicate_reordering_mpdus_in_order`. Every round takes one block off the list,
so the number of blocks bounds the rounds. -/
def inOrderLoop : Nat → Rx → (startSeq lastIndSeq : Nat) → Rx × Nat
  | 0, rx, _, lastIndSeq => (rx, lastIndSeq)
  | fuel + 1, rx, startSeq, lastIndSeq =>
    match baReorderingMpduProbe rx.entry.list with
    | none => (rx, lastIndSeq)
    | some blk =>
      if !seqStepOne blk.sequence startSeq maxSeq then (rx, lastIndSeq)
      else
        match indicateHead rx with
        | none => (rx, lastIndSeq)
        | some (blk, rx) => inOrderLoop fuel rx blk.sequence blk.sequence

/-- Returns the last sequence number indicated, or `RESET_RCV_SEQ` when there was none. -/
def baIndicateReorderingMpdusInOrder (rx : Rx) (startSeq : Nat) : Rx × Nat :=
  inOrderLoop rx.entry.list.next.length rx startSeq resetRcvSeq

def leSeqLoop : Nat → Rx → (sequence : Nat) → Rx
  | 0, rx, _ => rx
  | fuel + 1, rx, sequence =>
    match baReorderingMpduProbe rx.entry.list with
    | none => rx
    | some blk =>
      if blk.sequence.val = sequence ∨ seqSmaller blk.sequence sequence maxSeq then
        match indicateHead rx with
        | none => rx
        | some (_, rx) => leSeqLoop fuel rx sequence
      else rx

def baIndicateReorderingMpdusLeSeq (rx : Rx) (sequence : Nat) : Rx :=
  leSeqLoop rx.entry.list.next.length rx sequence

def refreshLoop : Nat → Rx → Rx
  | 0, rx => rx
  | fuel + 1, rx =>
    match indicateHead rx with
    | none => rx
    | some (blk, rx) => refreshLoop fuel (rx.setLastIndSeq blk.sequence)

def baRefreshReorderingMpdus (rx : Rx) : Rx :=
  (refreshLoop rx.entry.list.qlen rx).setLastIndSeq resetRcvSeq

/-- The longer time-out of `ba_flush_reordering_timeout_mpdus`: "flush all!". -/
def flushAllDue (hz : OsHz) (entry : BaRecEntry) (now32 : Ulong) : Bool :=
  rtmpTimeAfter now32
      (entry.lastIndSeqAtTimer + BitVec.ofNat 64 (hz.maxReorderingPacketTimeout / 6)) &&
    decide (1 < entry.list.qlen)

/-- Its shorter time-out: "flush one!". -/
def flushOneDue (hz : OsHz) (entry : BaRecEntry) (now32 : Ulong) : Bool :=
  rtmpTimeAfter now32
      (entry.lastIndSeqAtTimer + BitVec.ofNat 64 hz.reorderingPacketTimeout) &&
    decide (0 < entry.list.qlen)

/-- The assignment that follows each call of `ba_indicate_reordering_mpdus_in_order`. -/
def indicateInOrderFrom (rx : Rx) (startSeq : Nat) : Rx :=
  let (rx, sequence) := baIndicateReorderingMpdusInOrder rx startSeq
  if sequence ≠ resetRcvSeq then rx.setLastIndSeq sequence else rx

def baFlushReorderingTimeoutMpdus (hz : OsHz) (rx : Rx) (now32 : Ulong) : Rx :=
  if rx.entry.list.qlen = 0 then rx
  else if flushAllDue hz rx.entry now32 then
    (baRefreshReorderingMpdus rx).setLastIndSeqAtTimer now32
  else if flushOneDue hz rx.entry now32 then
    -- force LastIndSeq to shift to LastIndSeq+1
    let sequence := (rx.entry.lastIndSeq + 1) &&& maxSeq
    let rx := baIndicateReorderingMpdusLeSeq rx sequence
    let rx := (rx.setLastIndSeqAtTimer now32).setLastIndSeq sequence
    indicateInOrderFrom rx sequence
  else rx

/-! ## 5. A received subframe -/

/-- A block is taken from the pool before the frame's kind is looked at, and an EAPOL frame never
gives it back. -/
def baEnqueueReorderingPacket (rx : Rx) (blk : RxBlk) : Rx :=
  let alloc := decide (0 < rx.freelist)
  let rx := { rx with freelist := rx.freelist - 1 }
  if alloc && !blk.eap then
    let mpdu : ReorderingMpdu := ⟨blk.pRxPacket, blk.sequence, blk.amsdu, blk.opMode⟩
    match baReorderingMpduInsertsorted rx.entry.list mpdu with
    | some list => rx.setList list
    | none => { rx.note (.release blk.pRxPacket) with freelist := rx.freelist + 1 }
  else
    let rx := baIndicateReorderingMpdusLeSeq rx blk.sequence
    (rx.setLastIndSeq blk.sequence).note (.legacy blk)

/-- The five cases of `Indicate_AMPDU_Packet`, once the session is found and its time-outs are
done. -/
def indicateBySequence (rx : Rx) (blk : RxBlk) (now32 : Ulong) : Rx :=
  let sequence : Nat := blk.sequence
  let lastIndSeq := rx.entry.lastIndSeq
  let win := rx.entry.baWinSize.toNat
  if lastIndSeq = resetRcvSeq then
    -- reset rcv sequence of BA session
    ((rx.setLastIndSeq sequence).setLastIndSeqAtTimer now32).note (.legacy blk)
  else if seqStepOne sequence lastIndSeq maxSeq then
    -- I. in order
    let rx := (rx.setLastIndSeq sequence).note (.legacy blk)
    (indicateInOrderFrom rx sequence).setLastIndSeqAtTimer now32
  else if sequence = lastIndSeq ∨ seqSmaller sequence lastIndSeq maxSeq then
    -- II. duplicated, III. old
    { rx with entry := { rx.entry with nDropPacket := rx.entry.nDropPacket + 1 } }.note
      (.release blk.pRxPacket)
  else if seqSmaller sequence ((lastIndSeq + win + 1) &&& maxSeq) maxSeq then
    -- IV. within the window
    baEnqueueReorderingPacket rx blk
  else
    -- V. beyond the window: move it so that it ends with this frame
    let tmpSeq : Int := (sequence : Int) - win - 1
    let tmpSeq := if tmpSeq < 0 then maxSeq + 1 + tmpSeq else tmpSeq
    let winStartSeq := (tmpSeq + 1).toNat &&& maxSeq
    let rx := baIndicateReorderingMpdusLeSeq rx winStartSeq
    let rx := (rx.setLastIndSeq winStartSeq).setLastIndSeqAtTimer now32
    let rx := baEnqueueReorderingPacket rx blk
    indicateInOrderFrom rx rx.entry.lastIndSeq

/-- What `Indicate_AMPDU_Packet` does with the session it has found. -/
def indicateOnEntry (hz : OsHz) (rx : Rx) (blk : RxBlk) (now32 : Ulong) : Rx :=
  let rx := { rx with entry := { rx.entry with rcvSeq := blk.sequence } }
  let rx := (baFlushReorderingTimeoutMpdus hz rx now32).setLastIndSeqAtTimer now32
  indicateBySequence rx blk now32

/-! ## 6. The session table -/

/-- `MAX_LEN_OF_MAC_TABLE` -/
def maxLenOfMacTable : Nat := 32

/-- `NUM_OF_TID` -/
def numOfTid : Nat := 8

/-- `MAX_LEN_OF_BA_REC_TABLE` -/
def maxLenOfBaRecTable : Nat := numOfTid * maxLenOfMacTable / 2

/-- `MAX_RX_PKT_LEN` -/
def maxRxPktLen : Nat := 1520

/-- The sessions of the adapter. `baRecWcidArray wcid tid` is the index of a session's entry, `0`
when there is none; the `TID` of a frame has four bits, and every cell it can name is a cell of
its own here. -/
structure Adapter where
  baRecWcidArray : Nat → Fin 16 → Nat
  baRecEntry : Nat → BaRecEntry
  numAsRecipient : Nat
  freelist : Nat
  log : List Disposal

namespace Adapter

/-- The view of one entry that the functions above work on. -/
def rx (ad : Adapter) (idx : Nat) : Rx :=
  ⟨ad.baRecEntry idx, ad.freelist, ad.log⟩

/-- Write such a view back. -/
def store (ad : Adapter) (idx : Nat) (rx : Rx) : Adapter :=
  { ad with
    baRecEntry := fun i => if i = idx then rx.entry else ad.baRecEntry i
    freelist := rx.freelist
    log := rx.log }

def modifyEntry (ad : Adapter) (idx : Nat) (f : BaRecEntry → BaRecEntry) : Adapter :=
  { ad with baRecEntry := fun i => if i = idx then f (ad.baRecEntry i) else ad.baRecEntry i }

def setWcidArray (ad : Adapter) (wcid : Nat) (tid : Fin 16) (idx : Nat) : Adapter :=
  { ad with
    baRecWcidArray := fun w t => if w = wcid ∧ t = tid then idx else ad.baRecWcidArray w t }

end Adapter

/-- `BATableInit` on the zeroed adapter, with a pool of `freelist` blocks. -/
def baTableInit (freelist : Nat) : Adapter where
  baRecWcidArray := fun _ _ => 0
  baRecEntry := fun _ => {}
  numAsRecipient := 0
  freelist := freelist
  log := []

/-- `BATableAllocRecEntry`: the entry, if any, and the value of `*Idx` afterwards, which is `idx₀`
before. A full scan that finds no free entry still returns the last one it looked at. -/
def baTableAllocRecEntry (ad : Adapter) (idx₀ : Nat) : Adapter × Option Nat × Nat :=
  if maxLenOfBaRecTable - 1 ≤ ad.numAsRecipient then (ad, none, idx₀)
  else
    match (List.range' 1 (maxLenOfBaRecTable - 1)).find? fun i =>
        decide ((ad.baRecEntry i).recBaStatus = .recipientNone) with
    | some i =>
      ({ ad with numAsRecipient := ad.numAsRecipient + 1 }.modifyEntry i
          fun e => { e with recBaStatus := .recipientUsed }, some i, i)
    | none => (ad, some (maxLenOfBaRecTable - 1), idx₀)

/-- `BATableFreeRecEntry` -/
def baTableFreeRecEntry (ad : Adapter) (idx : Nat) : Adapter :=
  if idx = 0 ∨ maxLenOfBaRecTable ≤ idx then ad
  else
    let entry := ad.baRecEntry idx
    if entry.recBaStatus = .recipientNone then ad
    else
      { ad.setWcidArray entry.wcid entry.tid 0 with
        numAsRecipient := ad.numAsRecipient - 1 }.modifyEntry idx
          fun e => { e with recBaStatus := .recipientNone }

/-- `FRAME_ADDBA_REQ`, as `PeerAddBAReqAction` hands it on. -/
structure FrameAddbaReq where
  tid : Fin 16
  bufSize : Fin 1024
  timeOutValue : Nat
  deriving DecidableEq, Repr

/-- `BARecSessionAdd` for the MAC entry `wcid`; `rxBaWinLimit` is the configured capability. -/
def baRecSessionAdd (ad : Adapter) (wcid : Nat) (rxBaWinLimit : UInt8) (frame : FrameAddbaReq) :
    Adapter × Bool :=
  let tid := frame.tid
  let baWinSize := min (UInt8.ofNat frame.bufSize) rxBaWinLimit
  -- Intel patch
  let baWinSize := if baWinSize = 0 then 64 else baWinSize
  let idx := ad.baRecWcidArray wcid tid
  let (ad, pBAEntry, idx) :=
    if idx = 0 then baTableAllocRecEntry ad idx
    else (ad.store idx (baRefreshReorderingMpdus (ad.rx idx)), some idx, idx)
  match pBAEntry with
  | none => (ad, false)
  | some i =>
    let ad := ad.modifyEntry i fun e =>
      { e with
        baWinSize := baWinSize
        wcid := wcid
        tid := tid
        timeOutValue := frame.timeOutValue
        recBaStatus := .recipientAccept
        lastIndSeq := resetRcvSeq }
    (ad.setWcidArray wcid tid idx, true)

/-- `BARecSessionTearDown`; `elemAlloc` tells whether the buffer of the outgoing DELBA could be
allocated, which only matters when the tear-down is our own. -/
def baRecSessionTearDown (ad : Adapter) (wcid : Nat) (tid : Fin 16) (bPassive elemAlloc : Bool) :
    Adapter :=
  if maxLenOfMacTable ≤ wcid then ad
  else
    let idx := ad.baRecWcidArray wcid tid
    if idx = 0 then ad
    else
      let entry := ad.baRecEntry idx
      if tid = entry.tid ∧ entry.recBaStatus = .recipientAccept then
        if !bPassive && !elemAlloc then ad
        else
          let ad := ad.store idx (baRefreshReorderingMpdus (ad.rx idx))
          let ad := ad.modifyEntry idx fun e =>
            { e with lastIndSeq := resetRcvSeq, baWinSize := 0 }
          baTableFreeRecEntry (ad.setWcidArray wcid tid 0) idx
      else baTableFreeRecEntry ad idx

/-- `BARecSessionIdleTimeout` -/
def baRecSessionIdleTimeout (ad : Adapter) (idx : Nat) (now32 : Ulong) : Adapter :=
  let entry := ad.baRecEntry idx
  if entry.recBaStatus = .recipientAccept ∧
      rtmpTimeAfter now32
        (entry.lastIndSeqAtTimer + BitVec.ofNat 64 recBaSessionIdleTimeout) then
    ad.store idx (baRefreshReorderingMpdus (ad.rx idx))
  else ad

/-- `Indicate_AMPDU_Packet` -/
def indicateAmpduPacket (hz : OsHz) (ad : Adapter) (blk : RxBlk) (now32 : Ulong) : Adapter :=
  if !blk.amsdu ∧ maxRxPktLen < blk.dataSize then
    { ad with log := ad.log ++ [.release blk.pRxPacket] }
  else if blk.wcid < maxLenOfMacTable then
    let idx := ad.baRecWcidArray blk.wcid blk.tid
    if idx = 0 then
      -- Rec BA Session had been torn down
      { ad with log := ad.log ++ [.legacy blk] }
    else ad.store idx (indicateOnEntry hz (ad.rx idx) blk now32)
  else { ad with log := ad.log ++ [.release blk.pRxPacket] }

/-- What `CntlEnqueueForRecv` does to the entry it has found. -/
def barOnEntry (rx : Rx) (startSeq : SeqNo) : Rx :=
  if seqSmaller rx.entry.lastIndSeq startSeq maxSeq then
    (baIndicateReorderingMpdusLeSeq rx startSeq).setLastIndSeq
      (if startSeq.val = 0 then maxSeq else startSeq.val - 1)
  else rx

/-- `sizeof(FRAME_BA_REQ)` -/
def sizeofFrameBaReq : Nat := 20

/-- `CntlEnqueueForRecv`. The index is not tested against `0`: a request for a session that does
not exist works on the entry `0`, which no session uses. -/
def cntlEnqueueForRecv (ad : Adapter) (halting : Bool) (wcid msgLen : Nat) (tid : Fin 16)
    (startSeq : SeqNo) : Adapter × Bool :=
  if halting then (ad, false)
  else if msgLen ≠ sizeofFrameBaReq then (ad, false)
  else if wcid < maxLenOfMacTable ∧ tid.val < 8 then
    let idx := ad.baRecWcidArray wcid tid
    (ad.store idx (barOnEntry (ad.rx idx) startSeq), true)
  else (ad, false)

/-- A call of `ba_flush_reordering_timeout_mpdus` on one session. -/
def flushTimeout (hz : OsHz) (ad : Adapter) (wcid : Nat) (tid : Fin 16) (now32 : Ulong) : Adapter :=
  let idx := ad.baRecWcidArray wcid tid
  ad.store idx (baFlushReorderingTimeoutMpdus hz (ad.rx idx) now32)

/-- `BaReOrderingBufferMaintain`; `entryNone` tells which MAC entries are unused. -/
def baReOrderingBufferMaintain (hz : OsHz) (ad : Adapter) (entryNone : Nat → Bool)
    (now32 : Ulong) : Adapter :=
  (List.range' 1 (maxLenOfMacTable - 1)).foldl (fun ad wcid =>
    if entryNone wcid then ad
    else (List.range numOfTid).foldl (fun ad tid =>
      flushTimeout hz ad wcid (Fin.ofNat 16 tid) now32) ad) ad

/-! ## 7. Operations -/

/-- The operations on the recipient sessions, in the order the driver happens to call them. -/
inductive Op
  | indicate (blk : RxBlk) (now32 : Ulong)
  | blockAckReq (halting : Bool) (wcid msgLen : Nat) (tid : Fin 16) (startSeq : SeqNo)
  | flush (wcid : Nat) (tid : Fin 16) (now32 : Ulong)
  | maintain (entryNone : Nat → Bool) (now32 : Ulong)
  | sessionAdd (wcid : Nat) (rxBaWinLimit : UInt8) (frame : FrameAddbaReq)
  | tearDown (wcid : Nat) (tid : Fin 16) (bPassive elemAlloc : Bool)
  | idleTimeout (idx : Nat) (now32 : Ulong)

def step (hz : OsHz) (ad : Adapter) : Op → Adapter
  | .indicate blk now32 => indicateAmpduPacket hz ad blk now32
  | .blockAckReq halting wcid msgLen tid startSeq =>
    (cntlEnqueueForRecv ad halting wcid msgLen tid startSeq).1
  | .flush wcid tid now32 => flushTimeout hz ad wcid tid now32
  | .maintain entryNone now32 => baReOrderingBufferMaintain hz ad entryNone now32
  | .sessionAdd wcid rxBaWinLimit frame => (baRecSessionAdd ad wcid rxBaWinLimit frame).1
  | .tearDown wcid tid bPassive elemAlloc => baRecSessionTearDown ad wcid tid bPassive elemAlloc
  | .idleTimeout idx now32 => baRecSessionIdleTimeout ad idx now32

end Mt7601.Ba
