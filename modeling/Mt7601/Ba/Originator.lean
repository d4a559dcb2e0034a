/-
# The originator side, and the whole session table

The rest of the session table of `common/ba_action.c`: our own sessions as originator, the bitmaps
the transmit path reads, and the action frames by which a peer opens and closes sessions. The
recipient side is the one of `Mt7601.Ba.Defs`; here it is wrapped, so that its bitmap is kept.

A MAC entry holds three arrays of eight cells one after the other: `BARecWcidArray`,
`BAOriWcidArray` and `BAOriSequence`, and none of the last is ever written. The `TID` of an action
frame has four bits. The upper eight cells that `BARecWcidArray[TID]` can name are therefore the
cells of `BAOriWcidArray`, and those that `BAOriWcidArray[TID]` can name read as `0`.

The timers are not modelled: a time-out may come at any moment. Of the frames sent out only the
ADDBA response is kept.
-/
import Mt7601.Ba.Defs
import Mt7601.Lib.Run

namespace Mt7601.Ba

/-! ## 1. The data -/

/-- `ORI_BLOCKACK_STATUS` -/
inductive OriBlockackStatus
  | originatorNone
  | originatorUsed
  | originatorWaitRes
  | originatorDone
  deriving DecidableEq, Repr

/-- `BA_ORI_ENTRY` -/
structure BaOriEntry where
  wcid : Nat := 0
  tid : Fin 16 := 0
  baWinSize : UInt8 := 0
  token : UInt8 := 0
  sequence : Nat := 0
  timeOutValue : Nat := 0
  oriBaStatus : OriBlockackStatus := .originatorNone
  deriving DecidableEq, Repr

/-- `MAX_LEN_OF_BA_ORI_TABLE` -/
def maxLenOfBaOriTable : Nat := numOfTid * maxLenOfMacTable / 2

/-- `ORI_SESSION_MAX_RETRY` -/
def oriSessionMaxRetry : Nat := 8

/-- The table, and the bitmaps of the MAC entries. -/
structure SessionTables where
  ad : Adapter
  baOriEntry : Nat → BaOriEntry
  numAsOriginator : Nat
  numDoneOriginator : Nat
  rxBaBitmap : Nat → Fin 16 → Bool
  txBaBitmap : Nat → Fin 16 → Bool
  baDeclineBitmap : Nat → Fin 16 → Bool

/-- The part of the configuration that is read here. -/
structure CommonCfg where
  autoBA : Bool
  bBADecline : Bool
  rxBaWinLimit : UInt8
  /-- `STA_TGN_WIFI_ON` -/
  tgnWifiOn : Bool
  deriving DecidableEq, Repr

/-- The part of a `MAC_TABLE_ENTRY` that is read here and never written. -/
structure MacEntry where
  isHtSta : Bool
  /-- `RTMPStaFixedTxMode` answers `FIXED_TXMODE_HT`. -/
  fixedTxModeHt : Bool
  /-- `fCLIENT_STATUS_RALINK_CHIPSET` -/
  ralinkChipset : Bool
  maxRAmpduFactor : Nat
  txSeq : Fin 16 → Nat

def setBit (bitmap : Nat → Fin 16 → Bool) (wcid : Nat) (tid : Fin 16) (value : Bool) :
    Nat → Fin 16 → Bool :=
  fun w t => if w = wcid ∧ t = tid then value else bitmap w t

namespace SessionTables

/-- `BAOriWcidArray[tid]` -/
def baOriWcidArray (tb : SessionTables) (wcid : Nat) (tid : Fin 16) : Nat :=
  if tid.val < numOfTid then tb.ad.baRecWcidArray wcid (tid + 8) else 0

/-- An assignment to `BAOriWcidArray[tid]`; the sessions of the table have a `tid` below eight. -/
def setOriWcidArray (tb : SessionTables) (wcid : Nat) (tid : Fin 16) (idx : Nat) : SessionTables :=
  if tid.val < numOfTid then { tb with ad := tb.ad.setWcidArray wcid (tid + 8) idx } else tb

def modifyOriEntry (tb : SessionTables) (idx : Nat) (f : BaOriEntry → BaOriEntry) :
    SessionTables :=
  { tb with baOriEntry := fun i => if i = idx then f (tb.baOriEntry i) else tb.baOriEntry i }

end SessionTables

/-- `BATableInit` on the zeroed adapter, with a pool of `freelist` blocks. -/
def sessionTablesInit (freelist : Nat) : SessionTables where
  ad := baTableInit freelist
  baOriEntry := fun _ => {}
  numAsOriginator := 0
  numDoneOriginator := 0
  rxBaBitmap := fun _ _ => false
  txBaBitmap := fun _ _ => false
  baDeclineBitmap := fun _ _ => false

/-! ## 2. Originator sessions -/

/-- `BATableAllocOriEntry`: the entry, if any, and the value of `*Idx` afterwards, which is `idx₀`
before. As for the recipients, a scan that finds nothing still returns the last entry. -/
def baTableAllocOriEntry (tb : SessionTables) (idx₀ : Nat) : SessionTables × Option Nat × Nat :=
  if maxLenOfBaOriTable - 1 ≤ tb.numAsOriginator then (tb, none, idx₀)
  else
    match (List.range' 1 (maxLenOfBaOriTable - 1)).find? fun i =>
        decide ((tb.baOriEntry i).oriBaStatus = .originatorNone) with
    | some i =>
      ({ tb with numAsOriginator := tb.numAsOriginator + 1 }.modifyOriEntry i
          fun e => { e with oriBaStatus := .originatorUsed }, some i, i)
    | none => (tb, some (maxLenOfBaOriTable - 1), idx₀)

/-- `BATableFreeOriEntry` -/
def baTableFreeOriEntry (tb : SessionTables) (idx : Nat) : SessionTables :=
  if idx = 0 ∨ maxLenOfBaOriTable ≤ idx then tb
  else
    let entry := tb.baOriEntry idx
    if entry.oriBaStatus = .originatorNone then tb
    else
      let tb := tb.setOriWcidArray entry.wcid entry.tid 0
      let tb :=
        if entry.oriBaStatus = .originatorDone then
          { tb with
            numDoneOriginator := tb.numDoneOriginator - 1
            txBaBitmap := setBit tb.txBaBitmap entry.wcid entry.tid false }
        else tb
      { tb with numAsOriginator := tb.numAsOriginator - 1 }.modifyOriEntry idx
        fun e => { e with oriBaStatus := .originatorNone, token := 0 }

/-- The status is `Originator_WaitRes` or a later one. -/
def OriBlockackStatus.atLeastWaitRes : OriBlockackStatus → Bool
  | .originatorNone | .originatorUsed => false
  | .originatorWaitRes | .originatorDone => true

/-- What `BAOriSessionSetUp` fills an entry with. -/
def initBaSession (cfg : CommonCfg) (pEntry : MacEntry) (wcid : Nat) (tid : Fin 16)
    (timeOut : Nat) : BaOriEntry where
  wcid := wcid
  tid := tid
  baWinSize := cfg.rxBaWinLimit
  token := 1
  sequence := pEntry.txSeq tid
  timeOutValue := timeOut
  oriBaStatus := .originatorWaitRes

/-- `BAOriSessionSetUp` for the MAC entry `wcid`; the second result is what `ORIBATimer` is set to,
if it is. -/
def baOriSessionSetUp (tb : SessionTables) (cfg : CommonCfg) (pEntry : MacEntry) (wcid : Nat)
    (tid : UInt8) (timeOut delayTime : Nat) (isForced : Bool) : SessionTables × Option Nat :=
  if numOfTid ≤ tid.toNat then (tb, none)
  else if !cfg.autoBA && !isForced then (tb, none)
  else if !pEntry.fixedTxModeHt then (tb, none)
  else
    let tid : Fin 16 := Fin.ofNat 16 tid.toNat
    -- try again after 3 secs
    let delayTime := if tb.baDeclineBitmap wcid tid && !isForced then 3000 else delayTime
    let idx := tb.baOriWcidArray wcid tid
    let (tb, pBAEntry, idx) :=
      if idx = 0 then baTableAllocOriEntry tb idx else (tb, some idx, idx)
    match pBAEntry with
    | none => (tb, none)
    | some i =>
      if (tb.baOriEntry i).oriBaStatus.atLeastWaitRes then (tb, none)
      else
        ((tb.setOriWcidArray wcid tid idx).modifyOriEntry i fun _ =>
          initBaSession cfg pEntry wcid tid timeOut, some delayTime)

/-- `BA_MaxWinSizeReasign` on this chip; the sizes are `UCHAR`s. -/
def baMaxWinSizeReasign (pEntryPeer : MacEntry) (winSize : UInt8) : UInt8 :=
  let maxPeerRxSize : UInt8 :=
    if pEntryPeer.ralinkChipset then UInt8.ofNat (1 <<< (pEntryPeer.maxRAmpduFactor + 3))
    else UInt8.ofNat ((1 <<< (pEntryPeer.maxRAmpduFactor + 3)) * 10 / 16 - 1)
  let maxSize := min maxPeerRxSize 21
  if maxSize < winSize then maxSize else winSize

/-- `FRAME_ADDBA_RSP`, the fields that are read. -/
structure FrameAddbaRsp where
  statusCode : UInt16
  baPolicy : Bool
  tid : Fin 16
  bufSize : Fin 1024
  timeOutValue : Nat
  deriving DecidableEq, Repr

/-- `BAOriSessionAdd` -/
def baOriSessionAdd (tb : SessionTables) (pEntry : MacEntry) (wcid : Nat) (frame : FrameAddbaRsp) :
    SessionTables :=
  let tid := frame.tid
  let idx := tb.baOriWcidArray wcid tid
  let entry := tb.baOriEntry idx
  if idx ≠ 0 ∧ entry.tid = tid ∧ entry.oriBaStatus = .originatorWaitRes then
    let maxPeerBufSize := UInt8.ofNat frame.bufSize
    let maxPeerBufSize := if 0 < maxPeerBufSize then maxPeerBufSize - 1 else 0
    { tb with
      numDoneOriginator := tb.numDoneOriginator + 1
      txBaBitmap := setBit tb.txBaBitmap wcid tid true }.modifyOriEntry idx fun e =>
        { e with
          baWinSize := baMaxWinSizeReasign pEntry (min e.baWinSize maxPeerBufSize)
          timeOutValue := frame.timeOutValue
          oriBaStatus := .originatorDone
          sequence := pEntry.txSeq tid }
  else tb

/-- `BAOriSessionTearDown`; `elemAlloc` tells whether the buffer of the outgoing DELBA could be
allocated. With `bForceSend` a DELBA goes out for a session that does not exist, which changes
nothing here. -/
def baOriSessionTearDown (tb : SessionTables) (wcid : Nat) (tid : Fin 16)
    (bPassive elemAlloc : Bool) : SessionTables :=
  if maxLenOfMacTable ≤ wcid then tb
  else
    let idx := tb.baOriWcidArray wcid tid
    if idx = 0 ∨ maxLenOfBaOriTable ≤ idx then tb
    else
      let entry := tb.baOriEntry idx
      if (!bPassive ∧ tid = entry.tid ∧ entry.oriBaStatus = .originatorDone) ∧ !elemAlloc then tb
      else baTableFreeOriEntry tb idx

/-- `BAOriSessionSetupTimeout` on the entry `idx`. It does nothing in monitor and in test mode
(`off`), and only comes back later while a scan is going on (`scanning`). -/
def baOriSessionSetupTimeout (tb : SessionTables) (idx : Nat) (off scanning : Bool) :
    SessionTables :=
  if off then tb
  else
    let entry := tb.baOriEntry idx
    if entry.oriBaStatus = .originatorWaitRes ∧ entry.token.toNat < oriSessionMaxRetry then
      if scanning then tb
      else tb.modifyOriEntry idx fun e => { e with token := e.token + 1 }
    else baTableFreeOriEntry tb (tb.baOriWcidArray entry.wcid entry.tid)

/-! ## 3. Recipient sessions, with their bitmaps -/

/-- `BARecSessionAdd` -/
def recSessionAdd (tb : SessionTables) (wcid : Nat) (rxBaWinLimit : UInt8) (frame : FrameAddbaReq) :
    SessionTables × Bool :=
  match baRecSessionAdd tb.ad wcid rxBaWinLimit frame with
  | (ad, true) =>
    ({ tb with
      ad := ad
      rxBaBitmap := setBit tb.rxBaBitmap wcid frame.tid true
      baDeclineBitmap := setBit tb.baDeclineBitmap wcid frame.tid false }, true)
  | (ad, false) => ({ tb with ad := ad }, false)

/-- `BARecSessionTearDown`: the bitmap is cleared on the path that flushes the session. -/
def recSessionTearDown (tb : SessionTables) (wcid : Nat) (tid : Fin 16)
    (bPassive elemAlloc : Bool) : SessionTables :=
  let idx := tb.ad.baRecWcidArray wcid tid
  let entry := tb.ad.baRecEntry idx
  { tb with
    ad := baRecSessionTearDown tb.ad wcid tid bPassive elemAlloc
    rxBaBitmap :=
      if wcid < maxLenOfMacTable ∧ idx ≠ 0 ∧ (tid = entry.tid ∧ entry.recBaStatus = .recipientAccept) ∧
          (bPassive || elemAlloc) then
        setBit tb.rxBaBitmap wcid entry.tid false
      else tb.rxBaBitmap }

/-- `BARecSessionIdleTimeout` -/
def recSessionIdleTimeout (tb : SessionTables) (idx : Nat) (now32 : Ulong) : SessionTables :=
  { tb with ad := baRecSessionIdleTimeout tb.ad idx now32 }

/-- `BASessionTearDownALL`; the two functions tell which buffers could be allocated. -/
def baSessionTearDownAll (tb : SessionTables) (wcid : Nat) (oriAlloc recAlloc : Nat → Bool) :
    SessionTables :=
  (List.range numOfTid).foldl (fun tb i =>
    recSessionTearDown (baOriSessionTearDown tb wcid (Fin.ofNat 16 i) false (oriAlloc i)) wcid
      (Fin.ofNat 16 i) false (recAlloc i)) tb

/-! ## 4. Action frames -/

/-- `sizeof(FRAME_ADDBA_REQ)` -/
def sizeofFrameAddbaReq : Nat := 33

/-- `sizeof(FRAME_ADDBA_RSP)` -/
def sizeofFrameAddbaRsp : Nat := 33

/-- `sizeof(FRAME_DELBA_REQ)` -/
def sizeofFrameDelbaReq : Nat := 30

/-- A received ADDBA request: `baPolicy` is its policy bit, set for `IMMED_BA`. -/
structure AddbaReqMsg where
  msgLen : Nat
  baPolicy : Bool
  frame : FrameAddbaReq
  deriving DecidableEq, Repr

def peerAddBaReqActionSanity (msg : AddbaReqMsg) : Bool :=
  if msg.msgLen < sizeofFrameAddbaReq then false else msg.baPolicy

/-- The response that is always sent back. -/
structure AddbaRspOut where
  statusCode : Nat
  tid : Fin 16
  bufSize : Nat
  deriving DecidableEq, Repr

/-- `PeerAddBAReqAction` -/
def peerAddBaReqAction (tb : SessionTables) (cfg : CommonCfg) (pMacEntry : MacEntry) (wcid : Nat)
    (msg : AddbaReqMsg) : SessionTables × Option AddbaRspOut :=
  if maxLenOfMacTable ≤ wcid then (tb, none)
  else
    let (tb, status) :=
      if peerAddBaReqActionSanity msg then
        if !cfg.bBADecline && pMacEntry.isHtSta then
          match recSessionAdd tb wcid cfg.rxBaWinLimit msg.frame with
          | (tb, true) => (tb, 0)
          | (tb, false) => (tb, 38)
        else (tb, 37)
      else (tb, 1)
    let bufSize := (min (UInt8.ofNat msg.frame.bufSize) cfg.rxBaWinLimit).toNat
    (tb, some ⟨status, msg.frame.tid, if bufSize = 0 then 64 else bufSize⟩)

/-- A received ADDBA response. -/
structure AddbaRspMsg where
  msgLen : Nat
  frame : FrameAddbaRsp
  deriving DecidableEq, Repr

def peerAddBaRspActionSanity (msg : AddbaRspMsg) : Bool :=
  if msg.msgLen < sizeofFrameAddbaRsp then false else msg.frame.baPolicy

/-- `PeerAddBARspAction` -/
def peerAddBaRspAction (tb : SessionTables) (cfg : CommonCfg) (pEntry : MacEntry) (wcid : Nat)
    (msg : AddbaRspMsg) : SessionTables :=
  if maxLenOfMacTable ≤ wcid then tb
  else if peerAddBaRspActionSanity msg then
    let frame := msg.frame
    let tb :=
      if frame.statusCode = 0 then baOriSessionAdd tb pEntry wcid frame
      else baOriSessionTearDown tb wcid frame.tid true false
    if frame.statusCode = 37 ∨ (cfg.tgnWifiOn ∧ frame.statusCode ≠ 0) then
      { tb with baDeclineBitmap := setBit tb.baDeclineBitmap wcid frame.tid true }
    else tb
  else tb

/-- A received DELBA; `initiator` is set when the sender was the originator. -/
structure DelbaMsg where
  msgLen : Nat
  initiator : Bool
  tid : Fin 16
  deriving DecidableEq, Repr

def peerDelBaActionSanity (wcid : Nat) (msg : DelbaMsg) : Bool :=
  if msg.msgLen ≠ sizeofFrameDelbaReq then false else decide (wcid < maxLenOfMacTable)

/-- `PeerDelBAAction` -/
def peerDelBaAction (tb : SessionTables) (wcid : Nat) (msg : DelbaMsg) : SessionTables :=
  if peerDelBaActionSanity wcid msg then
    if msg.initiator then recSessionTearDown tb wcid msg.tid true false
    else baOriSessionTearDown tb wcid msg.tid true false
  else tb

/-! ## 5. Operations -/

/-- What happens to the table, in any order. -/
inductive TableOp
  | oriSessionSetUp (cfg : CommonCfg) (pEntry : MacEntry) (wcid : Nat) (tid : UInt8)
      (timeOut delayTime : Nat) (isForced : Bool)
  | oriSessionAdd (pEntry : MacEntry) (wcid : Nat) (frame : FrameAddbaRsp)
  | oriSessionTearDown (wcid : Nat) (tid : Fin 16) (bPassive elemAlloc : Bool)
  | oriSessionSetupTimeout (idx : Nat) (off scanning : Bool)
  | recSessionAdd (wcid : Nat) (rxBaWinLimit : UInt8) (frame : FrameAddbaReq)
  | recSessionTearDown (wcid : Nat) (tid : Fin 16) (bPassive elemAlloc : Bool)
  | recSessionIdleTimeout (idx : Nat) (now32 : Ulong)
  | sessionTearDownAll (wcid : Nat) (oriAlloc recAlloc : Nat → Bool)
  | peerAddBaReq (cfg : CommonCfg) (pMacEntry : MacEntry) (wcid : Nat) (msg : AddbaReqMsg)
  | peerAddBaRsp (cfg : CommonCfg) (pEntry : MacEntry) (wcid : Nat) (msg : AddbaRspMsg)
  | peerDelBa (wcid : Nat) (msg : DelbaMsg)

def tableStep (tb : SessionTables) : TableOp → SessionTables
  | .oriSessionSetUp cfg pEntry wcid tid timeOut delayTime isForced =>
    (baOriSessionSetUp tb cfg pEntry wcid tid timeOut delayTime isForced).1
  | .oriSessionAdd pEntry wcid frame => baOriSessionAdd tb pEntry wcid frame
  | .oriSessionTearDown wcid tid bPassive elemAlloc =>
    baOriSessionTearDown tb wcid tid bPassive elemAlloc
  | .oriSessionSetupTimeout idx off scanning => baOriSessionSetupTimeout tb idx off scanning
  | .recSessionAdd wcid rxBaWinLimit frame => (recSessionAdd tb wcid rxBaWinLimit frame).1
  | .recSessionTearDown wcid tid bPassive elemAlloc =>
    recSessionTearDown tb wcid tid bPassive elemAlloc
  | .recSessionIdleTimeout idx now32 => recSessionIdleTimeout tb idx now32
  | .sessionTearDownAll wcid oriAlloc recAlloc => baSessionTearDownAll tb wcid oriAlloc recAlloc
  | .peerAddBaReq cfg pMacEntry wcid msg => (peerAddBaReqAction tb cfg pMacEntry wcid msg).1
  | .peerAddBaRsp cfg pEntry wcid msg => peerAddBaRspAction tb cfg pEntry wcid msg
  | .peerDelBa wcid msg => peerDelBaAction tb wcid msg

end Mt7601.Ba
