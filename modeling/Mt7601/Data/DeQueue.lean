/-
# The dequeue loop: from the software TX queues to the hard-transmit calls

`RTMPDeQueuePacket` takes packets off the head of a software TX queue, one block a turn: a management
frame, a packet dropped because its link is jammed, or a data packet that goes to the hard-transmit
function, alone or with the packets behind it that `CanDoAggregateTransmit` lets into its block. It
stops when the queue is empty, when enough packets have been taken, when the USB ring is full, or when
the adapter is not to send at all.

What the loop reads of the outside (the adapter's flags, the free room of the ring, whether the
management ring takes a frame, the clock) is an answer it gets at each turn.
-/
import Mt7601.Data.PowerSave
import Mt7601.Data.TxBlk

namespace Mt7601.Data

/-! ## 1. Packets, entries and the adapter -/

/-- `MCAST_WCID` -/
def mcastWcid : Nat := 0

/-- `RATE_6` -/
def rate6 : Nat := 4

/-- What the loop reads of a packet: its control block, its length and its first six octets. -/
structure SwPacket where
  id : Nat
  wcid : Nat
  da : List UInt8
  len : Nat
  mgmtPkt : Bool
  dhcp : Bool
  eapol : Bool
  wai : Bool
  tdls : Bool
  moreData : Bool
  eosp : Bool
  vlan : Bool
  llcSnap : Bool
  up : Fin 8
  txRate : Nat
  fragments : Nat

/-- `RTMP_GET_PACKET_LOWRATE` -/
def SwPacket.lowRate (p : SwPacket) : Bool := p.eapol || p.dhcp || p.wai

structure DeqEntry where
  /-- `IS_ENTRY_NONE` -/
  isNone : Bool
  continueTxFailCnt : Nat
  /-- `IS_HT_RATE` -/
  htRate : Bool
  psSave : Bool
  txBaBitmap : Fin 8 → Bool
  amsduInUsed : Bool
  aggregationCapable : Bool
  wmmCapable : Bool

structure DeqAdapter where
  /-- `OpMode` is `OPMODE_AP`, else `OPMODE_STA` -/
  opModeAp : Bool
  infraOn : Bool
  bAggregationCapable : Bool
  wmmInUsed : Bool
  entryLifeCheck : Nat
  entry : Nat → DeqEntry

/-- What the loop learns at one turn. -/
structure DeqAnswer where
  /-- one of the adapter flags under which nothing is sent is up -/
  halted : Bool
  /-- the management ring takes the frame -/
  mgmtOk : Bool
  /-- the entry's last packet went to the ring less than `ENTRY_RETRY_INTERVAL` ago -/
  recent : Bool
  /-- `RTMP_HAS_ENOUGH_FREE_DESC` for the first packet of a block -/
  hasTxDesc : Bool
  /-- `RTUSBNeedQueueBackForAgg`, asked twice -/
  queueBack₁ : Bool
  queueBack₂ : Bool
  /-- `RTMP_HAS_ENOUGH_FREE_DESC` for the next packet of a block that has so many -/
  hasMoreDesc : Nat → Bool

/-- `TxPktClassification`; `none` is `TX_MCAST_FRAME`. -/
def txPktClassification (ad : DeqAdapter) (p : SwPacket) : Option TxFrameType :=
  if p.wcid = mcastWcid then none
  else
    let e := ad.entry p.wcid
    let late (t : TxFrameType) : TxFrameType :=
      if p.fragments > 1 ∧ t = .legacy ∧ e.txBaBitmap p.up = false then .frag else t
    if p.lowRate then some (late .legacy)
    else if p.tdls then some (late .legacy)
    else if e.htRate then
      if p.moreData || e.psSave then some (late .legacy)
      else if p.eosp then some (late .legacy)
      else if e.txBaBitmap p.up then some .ampdu
      else if e.amsduInUsed then some .amsdu
      else some (late .legacy)
    else if (e.aggregationCapable && ad.bAggregationCapable) && decide (p.txRate ≥ rate6) &&
        !(ad.wmmInUsed && e.wmmCapable) then some .ralink
    else some (late .legacy)

/-- `TX_BLK`, what the loop writes of it. -/
structure DeqBlk where
  queIdx : Ac
  txFrameType : Option TxFrameType
  pPacket : SwPacket
  /-- `TxPacketList` -/
  txPacketList : List SwPacket
  totalFrameNum : Nat
  totalFragNum : Nat
  totalFrameLen : Nat

/-- A block with its first packet. -/
def DeqBlk.first (ad : DeqAdapter) (queIdx : Ac) (p : SwPacket) : DeqBlk where
  queIdx := queIdx
  txFrameType := txPktClassification ad p
  pPacket := p
  txPacketList := [p]
  totalFrameNum := 1
  totalFragNum := p.fragments
  totalFrameLen := p.len

/-- The next packet joins the block. -/
def DeqBlk.add (blk : DeqBlk) (p : SwPacket) : DeqBlk :=
  { blk with
    txPacketList := blk.txPacketList ++ [p]
    totalFrameNum := blk.totalFrameNum + 1
    totalFragNum := blk.totalFragNum + p.fragments
    totalFrameLen := blk.totalFrameLen + p.len }

/-- `RX_BUFFER_AGGRESIZE - 100`, the longest A-MSDU that is sent -/
def maxAmsduLen : Nat := 3840 - 100

def canDoAggregateTransmit (ad : DeqAdapter) (p : SwPacket) (blk : DeqBlk) : Bool :=
  let minLen := length8023 + if p.vlan then 4 else if p.llcSnap then 8 else 0
  if p.wcid = mcastWcid then false
  else if p.dhcp || p.eapol || p.wai then false
  else if minLen ≥ p.len then false
  else if blk.txFrameType = some .amsdu ∧ blk.totalFrameLen + p.len > maxAmsduLen then false
  else if blk.txFrameType = some .ralink ∧ blk.txPacketList.length = 2 then false
  else if ad.infraOn && !ad.opModeAp then true   -- must be unicast to the AP
  else blk.pPacket.da = p.da && ad.opModeAp      -- unicast to the same station

/-! ## 2. One turn -/

/-- What has become of packets that left a queue. -/
inductive DeqOut where
  /-- handed to `MlmeHardTransmitMgmtRing`, and released if that refused it -/
  | mgmt (p : SwPacket) (ok : Bool)
  /-- released at once, the link being jammed -/
  | drop (p : SwPacket)
  /-- handed to the hard-transmit function -/
  | hard (blk : DeqBlk)

def DeqOut.packets : DeqOut → List SwPacket
  | .mgmt p _ => [p]
  | .drop p => [p]
  | .hard blk => blk.txPacketList

structure DeqState where
  queue : List SwPacket
  /-- `Count`, a `UCHAR` -/
  count : Nat
  turn : Nat
  outs : List DeqOut

inductive DeqTurn where
  /-- the loop is left; `abort` leaves the whole function -/
  | stop (abort : Bool) (s : DeqState)
  | next (s : DeqState)

/-- The inner loop: packets join the block as long as there is room and they are allowed to. -/
def gather (ad : DeqAdapter) (hasMoreDesc : Nat → Bool) (blk : DeqBlk) :
    List SwPacket → DeqBlk × List SwPacket
  | [] => (blk, [])
  | p :: rest =>
      if hasMoreDesc blk.txPacketList.length = false ∨ canDoAggregateTransmit ad p blk = false then
        (blk, p :: rest)
      else gather ad hasMoreDesc (blk.add p) rest

/-- `TX_RALINK_FRAME` or `TX_AMSDU_FRAME` -/
def aggregates (ad : DeqAdapter) (p : SwPacket) : Bool :=
  txPktClassification ad p = some .ralink || txPktClassification ad p = some .amsdu

/-- `NEED_QUEUE_BACK_FOR_AGG` -/
def needQueueBack (ad : DeqAdapter) (p : SwPacket) (answer : Bool) : Bool :=
  txPktClassification ad p = some .ralink && answer

/-- A block of one packet goes out as a legacy frame. -/
def closeBlk (blk : DeqBlk) : DeqBlk :=
  if blk.txPacketList.length = 1 then { blk with txFrameType := some .legacy } else blk

/-- The packets of a block leave the queue. -/
def DeqState.leave (s : DeqState) (o : DeqOut) (counted : Nat) (rest : List SwPacket) :
    DeqState where
  queue := rest
  count := (s.count + counted) % 256
  turn := s.turn + 1
  outs := s.outs ++ [o]

/-- The jammed link: `ContinueTxFailCnt` has reached `EntryLifeCheck` and it is too early to try
again. -/
def jammed (ad : DeqAdapter) (recent : Bool) (p : SwPacket) : Bool :=
  !(ad.entry p.wcid).isNone && decide ((ad.entry p.wcid).continueTxFailCnt ≥ ad.entryLifeCheck) &&
    recent

def deqTurn (ad : DeqAdapter) (queIdx : Ac) (maxTxPackets : Int) (a : DeqAnswer)
    (s : DeqState) : DeqTurn :=
  if a.halted then .stop true s
  else if (s.count : Int) ≥ maxTxPackets then .stop false s
  else
    match s.queue with
    | [] => .stop false s
    | p :: rest =>
        if p.mgmtPkt then .next (s.leave (.mgmt p a.mgmtOk) 1 rest)
        else if jammed ad a.recent p then .next (s.leave (.drop p) 0 rest)
        else if a.hasTxDesc = false then .stop false s
        else if needQueueBack ad p a.queueBack₁ || needQueueBack ad p a.queueBack₂ then
          -- taken off and put back at the head
          .stop false { s with queue := p :: rest }
        else if aggregates ad p then
          let r := gather ad a.hasMoreDesc (.first ad queIdx p) rest
          .next (s.leave (.hard (closeBlk r.1)) r.1.txPacketList.length r.2)
        else .next (s.leave (.hard (.first ad queIdx p)) 1 rest)

/-! ## 3. The loop over a queue, and over the queues -/

/-- The loop over one queue, with at most so many turns; `none` when they are not enough. -/
def deqLoop (ad : DeqAdapter) (queIdx : Ac) (maxTxPackets : Int) (answers : Nat → DeqAnswer) :
    Nat → DeqState → Option (Bool × DeqState)
  | 0, _ => none
  | n + 1, s =>
      match deqTurn ad queIdx maxTxPackets (answers s.turn) s with
      | .stop abort t => some (abort, t)
      | .next t => deqLoop ad queIdx maxTxPackets answers n t

structure DeqEnv where
  answers : Ac → Nat → DeqAnswer
  /-- `DeQueueRunning`: another call is at this queue -/
  running : Ac → Bool
  /-- `QIdx`; `none` is `NUM_OF_TX_RING`, all queues -/
  qIdx : Option Ac
  maxTxPackets : Int

structure DeqOutcome where
  queues : Ac → List SwPacket
  outs : Ac → List DeqOut

def deqQueues (ad : DeqAdapter) (env : DeqEnv) (n : Nat) (r : DeqOutcome) :
    List Ac → Option DeqOutcome
  | [] => some r
  | ac :: acs =>
      if env.running ac then deqQueues ad env n r acs
      else
        match deqLoop ad ac env.maxTxPackets (env.answers ac) n ⟨r.queues ac, 0, 0, []⟩ with
        | none => none
        | some (abort, t) =>
            let r' : DeqOutcome :=
              { queues := Function.update r.queues ac t.queue
                outs := Function.update r.outs ac t.outs }
            if abort then some r' else deqQueues ad env n r' acs

/-- `RTMPDeQueuePacket`, with at most `n` turns at each queue. -/
def rtmpDeQueuePacket (ad : DeqAdapter) (env : DeqEnv) (queues : Ac → List SwPacket) (n : Nat) :
    Option DeqOutcome :=
  deqQueues ad env n ⟨queues, fun _ => []⟩
    (match env.qIdx with
      | none => [.be, .bk, .vi, .vo]
      | some ac => [ac])

end Mt7601.Data
