/-
# The MLME queue

`MlmeEnqueue`, `MlmeEnqueueForRecv`, `MlmeEnqueueForWsc`, `MlmeDequeue` and the loop of `MlmeHandler`
of `common/mlme.c`, with any number of threads. A call of an enqueue function takes the queue lock
twice: `MlmeQueueFull` looks whether there is room, and then, in a section of its own, the element
is put in. `MlmeHandler` takes an element out of the count before it runs the action, and lets go of
it behind the action without the lock. Each section is one step of one thread; an action of the
handler may enqueue too, on the handler's own thread.

The queue is to be first in, first out, and no element is to be written while it is pending or being
processed (`RunSound`). That is so in every run in which each insertion finds fewer than
`MAX_LEN_OF_MLME_QUEUE` elements, counting the one that is being processed; the next insertion that
does not find it so breaks it (`runSound_of_stepsMeet`).
-/
import Mt7601.Lib.Octets
import Mt7601.Lib.CircBuf
import Mt7601.Lib.Run

namespace Mt7601.Mlme

/-! ## 1. The queue -/

/-- `MAX_LEN_OF_MLME_QUEUE` -/
def maxLenOfMlmeQueue : Nat := 40
/-- `MGMT_DMA_BUFFER_SIZE` -/
def mgmtDmaBufferSize : Nat := 1600
/-- `RESERVED_WCID` -/
def reservedWcid : UInt8 := 0xff

/-- `MLME_QUEUE_ELEM` -/
structure MlmeQueueElem where
  msg : List UInt8 := List.replicate mgmtDmaBufferSize 0
  machine : Nat := 0
  msgType : Nat := 0
  msgLen : Nat := 0
  timeStampHigh : Nat := 0
  timeStampLow : Nat := 0
  rssi0 : UInt8 := 0
  rssi1 : UInt8 := 0
  rssi2 : UInt8 := 0
  antSel : UInt8 := 0
  signal : UInt8 := 0
  channel : UInt8 := 0
  wcid : UInt8 := 0
  occupied : Bool := false
  opMode : UInt8 := 0
  priv : Nat := 0

/-- `MLME_QUEUE` without its lock. -/
abbrev MlmeQueue := CircBuf MlmeQueueElem

/-- `MlmeQueueInit` -/
def mlmeQueueInit (queue : MlmeQueue) : MlmeQueue where
  num := 0
  head := 0
  tail := 0
  entry := fun i =>
    { queue.entry i with
      occupied := false
      msgLen := 0
      msg := List.replicate mgmtDmaBufferSize 0 }

/-- `MlmeQueueFull` -/
def mlmeQueueFull (queue : MlmeQueue) (sendId : Nat) : Bool :=
  if sendId = 0 then
    maxLenOfMlmeQueue / 2 ≤ queue.num ∨ (queue.entry queue.tail).occupied
  else queue.num = maxLenOfMlmeQueue

/-- The arguments of the three functions. Of `MlmeEnqueueForRecv`, with what `MsgTypeSubst` makes of
the frame and the channel that is latched. -/
inductive Call where
  | mlmeEnqueue (machine msgType msgLen : Nat) (msg : Option (List UInt8)) (priv : Nat)
  | mlmeEnqueueForRecv (wcid timeStampHigh timeStampLow : Nat) (rssi0 rssi1 rssi2 antSel : UInt8)
      (msgLen : Nat) (msg : Option (List UInt8)) (signal opMode : UInt8)
      (msgTypeSubst : Option (Nat × Nat)) (channel : UInt8)
  | mlmeEnqueueForWsc (eventId senderId machine msgType msgLen : Nat) (msg : Option (List UInt8))

/-- The flags that the functions look at. -/
structure Flags where
  haltInProgress : Bool := false
  nicNotExist : Bool := false
  ateOn : Bool := false

/-- The tests in front of the insertion, `MlmeQueueFull` among them. -/
def Call.admitted (flags : Flags) (queue : MlmeQueue) : Call → Bool
  | .mlmeEnqueue _ _ msgLen _ _ =>
    !(flags.haltInProgress || flags.nicNotExist) && msgLen ≤ mgmtDmaBufferSize &&
      !mlmeQueueFull queue 1
  | .mlmeEnqueueForRecv _ _ _ _ _ _ _ msgLen _ _ _ msgTypeSubst _ =>
    !flags.ateOn && !(flags.haltInProgress || flags.nicNotExist) && msgLen ≤ mgmtDmaBufferSize &&
      !mlmeQueueFull queue 0 && msgTypeSubst.isSome
  | .mlmeEnqueueForWsc _ _ _ _ msgLen _ =>
    !flags.haltInProgress && msgLen ≤ mgmtDmaBufferSize && !mlmeQueueFull queue 1

/-- `NdisMoveMemory` into the message buffer, unless there is no message. -/
def moveMsg (msg : Option (List UInt8)) (msgLen : Nat) (elem : MlmeQueueElem) : MlmeQueueElem :=
  match msg with
  | some msg => { elem with msg := Mem.write elem.msg 0 (Mem.read msg 0 msgLen) }
  | none => elem

/-- What each function writes into the element; the other fields stay. -/
def Call.fill (elem : MlmeQueueElem) : Call → MlmeQueueElem
  | .mlmeEnqueue machine msgType msgLen msg priv =>
    moveMsg msg msgLen
      { elem with
        wcid := reservedWcid
        occupied := true
        machine := machine
        msgType := msgType
        msgLen := msgLen
        priv := priv }
  | .mlmeEnqueueForRecv wcid timeStampHigh timeStampLow rssi0 rssi1 rssi2 antSel msgLen msg signal
      opMode msgTypeSubst channel =>
    moveMsg msg msgLen
      { elem with
        occupied := true
        machine := (msgTypeSubst.getD (0, 0)).1
        msgType := (msgTypeSubst.getD (0, 0)).2
        msgLen := msgLen
        timeStampLow := timeStampLow
        timeStampHigh := timeStampHigh
        rssi0 := rssi0
        rssi1 := rssi1
        rssi2 := rssi2
        antSel := antSel
        signal := signal
        wcid := UInt8.ofNat wcid
        opMode := opMode
        priv := 0
        channel := channel }
  | .mlmeEnqueueForWsc eventId senderId machine msgType msgLen msg =>
    moveMsg msg msgLen
      { elem with
        occupied := true
        machine := machine
        msgType := msgType
        msgLen := msgLen
        timeStampLow := eventId
        timeStampHigh := senderId }

/-- The insertion. -/
def Call.insert (call : Call) (queue : MlmeQueue) : MlmeQueue :=
  queue.push maxLenOfMlmeQueue (call.fill (queue.entry queue.tail))

/-- `MlmeDequeue`: the queue and the slot of `Elem`. -/
def mlmeDequeue (queue : MlmeQueue) : MlmeQueue × Nat :=
  (queue.pop maxLenOfMlmeQueue, queue.head)

/-! ## 2. Threads -/

/-- Where a thread is in `MlmeHandler`. -/
inductive HandlerPc where
  /-- not in it -/
  | idle
  /-- at the head of the loop -/
  | loop
  /-- the queue was seen not to be empty -/
  | notEmpty
  /-- the action runs on the element in a slot -/
  | processing (slot : Nat)
  /-- `Elem->Occupied = FALSE` has been done -/
  | released (slot : Nat)
  /-- out of the loop -/
  | leaving
  deriving DecidableEq

/-- The slot of the element that a thread has in hand. -/
def HandlerPc.elem : HandlerPc → Option Nat
  | .processing slot => some slot
  | .released slot => some slot
  | _ => none

/-- The queue, where each thread is, and what has been put into and taken out of the queue so far. -/
structure MlmeState where
  queue : MlmeQueue
  bRunning : Bool
  handler : Nat → HandlerPc
  /-- a call for which room was found and whose element is not yet in -/
  calling : Nat → Option Call
  enqueued : List MlmeQueueElem
  dequeued : List MlmeQueueElem

/-- A step of a thread. -/
inductive Action where
  /-- an enqueue function, up to the insertion -/
  | call (thread : Nat) (call : Call) (flags : Flags)
  | insert (thread : Nat)
  /-- `MlmeHandler` is called -/
  | start (thread : Nat)
  | mlmeQueueEmpty (thread : Nat)
  /-- the loop is left because of a flag of the adapter -/
  | breakOff (thread : Nat)
  | dequeue (thread : Nat)
  /-- `Elem->Occupied = FALSE` -/
  | release (thread : Nat)
  /-- `Elem->MsgLen = 0` -/
  | finish (thread : Nat)
  /-- `bRunning = FALSE` -/
  | leave (thread : Nat)
  /-- the action follows a channel switch of the access point and calls `MlmeQueueInit` -/
  | queueInit (thread : Nat)

namespace MlmeState

def setHandler (s : MlmeState) (t : Nat) (pc : HandlerPc) : MlmeState :=
  { s with handler := Function.update s.handler t pc }

def setCalling (s : MlmeState) (t : Nat) (call : Option Call) : MlmeState :=
  { s with calling := Function.update s.calling t call }

/-- A field of an element is written. -/
def modifyElem (s : MlmeState) (slot : Nat) (f : MlmeQueueElem → MlmeQueueElem) : MlmeState :=
  { s with
    queue :=
      { s.queue with entry := Function.update s.queue.entry slot (f (s.queue.entry slot)) } }

/-- A thread may call an enqueue function out of an action or out of no handler at all. -/
def mayCall : HandlerPc → Bool
  | .idle => true
  | .processing _ => true
  | _ => false

/-- A step. A thread that is not where the step begins does nothing. -/
def step (s : MlmeState) : Action → MlmeState
  | .call t call flags =>
    if mayCall (s.handler t) && (s.calling t).isNone && call.admitted flags s.queue then
      s.setCalling t (some call)
    else s
  | .insert t =>
    match s.calling t with
    | some call =>
      { s.setCalling t none with
        queue := call.insert s.queue
        enqueued := s.enqueued ++ [call.fill (s.queue.entry s.queue.tail)] }
    | none => s
  | .start t =>
    if s.handler t = .idle ∧ (s.calling t).isNone ∧ s.bRunning = false then
      { s.setHandler t .loop with bRunning := true }
    else s
  | .mlmeQueueEmpty t =>
    if s.handler t = .loop then s.setHandler t (if s.queue.num = 0 then .leaving else .notEmpty)
    else s
  | .breakOff t => if s.handler t = .notEmpty then s.setHandler t .leaving else s
  | .dequeue t =>
    if s.handler t = .notEmpty then
      { s.setHandler t (.processing (mlmeDequeue s.queue).2) with
        queue := (mlmeDequeue s.queue).1
        dequeued := s.dequeued ++ [s.queue.entry s.queue.head] }
    else s
  | .release t =>
    match s.handler t with
    | .processing slot =>
      if (s.calling t).isNone then
        (s.modifyElem slot fun elem => { elem with occupied := false }).setHandler t (.released slot)
      else s
    | _ => s
  | .finish t =>
    match s.handler t with
    | .released slot =>
      (s.modifyElem slot fun elem => { elem with msgLen := 0 }).setHandler t .loop
    | _ => s
  | .leave t =>
    if s.handler t = .leaving then { s.setHandler t .idle with bRunning := false } else s
  | .queueInit t =>
    match s.handler t with
    | .processing _ =>
      if (s.calling t).isNone then { s with queue := mlmeQueueInit s.queue } else s
    | _ => s

/-- The queue once `MlmeQueueInit` has run, whatever its memory held. -/
def start (queue : MlmeQueue) : MlmeState where
  queue := mlmeQueueInit queue
  bRunning := false
  handler := fun _ => .idle
  calling := fun _ => none
  enqueued := []
  dequeued := []

end MlmeState

/-! ## 3. What the queue is to be -/

/-- The count is that of the elements that are in, and not too many; elements come out once, in the
order in which they went in; and the element in an action's hand is the one that came out. -/
structure QueueSound (s : MlmeState) : Prop where
  num_eq : s.enqueued.length = s.dequeued.length + s.queue.num
  num_le : s.queue.num ≤ maxLenOfMlmeQueue
  fifo : s.enqueued = s.dequeued ++ s.queue.contents maxLenOfMlmeQueue
  processed : ∀ t slot, s.handler t = .processing slot →
    s.dequeued.getLast? = some (s.queue.entry slot)

/-- The element that an insertion writes is neither pending nor in a handler's hand. -/
def NoOverwrite (s : MlmeState) : Action → Prop
  | .insert t => s.calling t ≠ none →
      (∀ i < s.queue.num, s.queue.tail ≠ CircBuf.slot maxLenOfMlmeQueue s.queue.head i) ∧
        ∀ t' slot, (s.handler t').elem = some slot → s.queue.tail ≠ slot
  | _ => True

/-- The two, in every state of a run and at every step. -/
def RunSound (s : MlmeState) (is : List Action) : Prop :=
  (∀ done rest, is = done ++ rest → QueueSound (Run.final MlmeState.step s done)) ∧
    ∀ done a rest, is = done ++ a :: rest → NoOverwrite (Run.final MlmeState.step s done) a

/-- **The condition.** An insertion finds fewer elements than the queue has, counting the one in a
handler's hand, and no action throws the queue away. -/
def StepOk (s : MlmeState) : Action → Prop
  | .insert t => s.calling t ≠ none → s.queue.num < maxLenOfMlmeQueue ∧
      ∀ t' slot, (s.handler t').elem = some slot → s.queue.num + 1 < maxLenOfMlmeQueue
  | .queueInit t => ∀ slot, s.handler t ≠ .processing slot
  | _ => True

/-! ## 4. The invariant -/

/-- The queue is a circular buffer that holds what came in and is not yet out. One thread is in the
handler, and what it has in hand is the slot in front of the head. -/
structure Inv (s : MlmeState) : Prop where
  wf : s.queue.WellFormed maxLenOfMlmeQueue
  fifo : s.enqueued = s.dequeued ++ s.queue.contents maxLenOfMlmeQueue
  alone : ∀ t t', s.handler t ≠ .idle → s.handler t' ≠ .idle → t = t'
  running : ∀ t, s.handler t ≠ .idle → s.bRunning = true
  held : ∀ t slot, (s.handler t).elem = some slot → s.queue.Held maxLenOfMlmeQueue slot
  room : ∀ t slot, (s.handler t).elem = some slot → s.queue.num < maxLenOfMlmeQueue
  notEmpty : ∀ t, s.handler t = .notEmpty → 0 < s.queue.num
  processed : ∀ t slot, s.handler t = .processing slot →
    s.dequeued.getLast? = some (s.queue.entry slot)

theorem Inv.sound {s : MlmeState} (h : Inv s) : QueueSound s where
  num_eq := by
    have hlength := congrArg List.length h.fifo
    rwa [List.length_append, CircBuf.length_contents] at hlength
  num_le := h.wf.num_le
  fifo := h.fifo
  processed := h.processed

theorem inv_start (queue : MlmeQueue) : Inv (.start queue) where
  wf := ⟨Nat.zero_lt_succ _, Nat.zero_le _, rfl⟩
  fifo := rfl
  alone := fun _ _ h => absurd rfl h
  running := fun _ h => absurd rfl h
  held := fun _ _ h => nomatch h
  room := fun _ _ h => nomatch h
  notEmpty := fun _ h => nomatch h
  processed := fun _ _ h => nomatch h

/-- A thread in the handler is the only one. -/
theorem Inv.others {s : MlmeState} (h : Inv s) {t : Nat} (ht : s.handler t ≠ .idle) :
    ∀ t' ≠ t, s.handler t' = .idle := by
  intro t' hne
  by_contra hidle
  exact hne (h.alone t' t hidle ht)

/-- A step of the only thread in the handler: what is to be shown of it. -/
theorem inv_of_thread {s s' : MlmeState} {t : Nat} {pc : HandlerPc}
    (hothers : ∀ t' ≠ t, s.handler t' = .idle)
    (hhandler : s'.handler = Function.update s.handler t pc)
    (hrunning : pc ≠ .idle → s'.bRunning = true)
    (hwf : s'.queue.WellFormed maxLenOfMlmeQueue)
    (hfifo : s'.enqueued = s'.dequeued ++ s'.queue.contents maxLenOfMlmeQueue)
    (hheld : ∀ slot, pc.elem = some slot → s'.queue.Held maxLenOfMlmeQueue slot ∧
      s'.queue.num < maxLenOfMlmeQueue)
    (hnotEmpty : pc = .notEmpty → 0 < s'.queue.num)
    (hprocessed : ∀ slot, pc = .processing slot →
      s'.dequeued.getLast? = some (s'.queue.entry slot)) : Inv s' := by
  have hself : s'.handler t = pc := by rw [hhandler, Function.update_self]
  have hidle : ∀ t' ≠ t, s'.handler t' = .idle := by
    intro t' hne
    rw [hhandler, Function.update_of_ne hne]
    exact hothers t' hne
  have honly : ∀ t', s'.handler t' ≠ .idle → t' = t := by
    intro t' hbusy
    by_contra hne
    exact hbusy (hidle t' hne)
  have hpc : ∀ t', s'.handler t' ≠ .idle → s'.handler t' = pc := by
    intro t' hbusy
    rw [honly t' hbusy, hself]
  have helem : ∀ t' slot, (s'.handler t').elem = some slot → pc.elem = some slot := by
    intro t' slot hslot
    rwa [← hpc t' (by intro hno; rw [hno] at hslot; exact nomatch hslot)]
  refine ⟨hwf, hfifo, fun t₁ t₂ h₁ h₂ => (honly t₁ h₁).trans (honly t₂ h₂).symm, ?_, ?_, ?_, ?_, ?_⟩
  · intro t' hbusy
    exact hrunning (hpc t' hbusy ▸ hbusy)
  · exact fun t' slot hslot => (hheld slot (helem t' slot hslot)).1
  · exact fun t' slot hslot => (hheld slot (helem t' slot hslot)).2
  · intro t' hempty
    exact hnotEmpty ((hpc t' (by rw [hempty]; exact nofun)).symm.trans hempty)
  · intro t' slot hproc
    exact hprocessed slot ((hpc t' (by rw [hproc]; exact nofun)).symm.trans hproc)

/-! ## 5. Steps -/

section

variable {s : MlmeState}

/-- Another place in the handler; the queue stays as it is. -/
theorem Inv.setHandler (h : Inv s) {t : Nat} {pc : HandlerPc} (ht : s.handler t ≠ .idle)
    (helem : pc.elem = none) (hnotEmpty : pc = .notEmpty → 0 < s.queue.num) :
    Inv (s.setHandler t pc) := by
  refine inv_of_thread (h.others ht) rfl (fun _ => h.running t ht) h.wf h.fifo ?_ hnotEmpty ?_
  · intro slot hslot
    exact absurd (helem.symm.trans hslot) nofun
  · intro slot hproc
    rw [hproc] at helem
    exact absurd helem nofun

/-- What is done to the element in a handler's hand does not show in the queue. -/
theorem Inv.modifyElem (h : Inv s) {t slot : Nat} (ht : (s.handler t).elem = some slot)
    (f : MlmeQueueElem → MlmeQueueElem) {pc : HandlerPc} (hpc : pc = .released slot ∨ pc = .loop) :
    Inv ((s.modifyElem slot f).setHandler t pc) := by
  have hbusy : s.handler t ≠ .idle := by
    intro hidle
    rw [hidle] at ht
    exact absurd ht nofun
  have hheld := h.held t slot ht
  have hcontents : (s.modifyElem slot f).queue.contents maxLenOfMlmeQueue =
      s.queue.contents maxLenOfMlmeQueue := by
    refine CircBuf.contents_congr rfl rfl fun i hi => ?_
    exact Function.update_of_ne (hheld.slot_ne (h.room t slot ht) hi) _ _
  refine inv_of_thread (h.others hbusy) rfl (fun _ => h.running t hbusy)
    ⟨h.wf.head_lt, h.wf.num_le, h.wf.tail_eq⟩ (h.fifo.trans (congrArg _ hcontents.symm)) ?_ ?_ ?_
  · intro slot' hslot
    rcases hpc with rfl | rfl
    · obtain rfl : slot = slot' := Option.some.inj hslot
      exact ⟨⟨hheld.lt, hheld.next_eq⟩, h.room t slot ht⟩
    · exact absurd hslot nofun
  · rcases hpc with rfl | rfl <;> exact nofun
  · rcases hpc with rfl | rfl <;> exact nofun

theorem Inv.insert (h : Inv s) (t : Nat) (hok : StepOk s (.insert t)) :
    Inv (s.step (.insert t)) := by
  cases hcalling : s.calling t with
  | none =>
    simpa only [MlmeState.step, hcalling] using h
  | some call =>
    obtain ⟨hroom, hbusy⟩ := hok (by rw [hcalling]; exact nofun)
    have hstep : s.step (.insert t) =
        { s.setCalling t none with
          queue := call.insert s.queue
          enqueued := s.enqueued ++ [call.fill (s.queue.entry s.queue.tail)] } := by
      simp only [MlmeState.step, hcalling]
    rw [hstep]
    refine ⟨h.wf.push hroom _, ?_, h.alone, h.running, ?_, ?_, ?_, ?_⟩
    · change s.enqueued ++ [_] = s.dequeued ++ (CircBuf.push _ s.queue _).contents _
      rw [h.wf.contents_push hroom, h.fifo, List.append_assoc]
    · exact fun t' slot hslot => ⟨(h.held t' slot hslot).lt, (h.held t' slot hslot).next_eq⟩
    · exact fun t' slot hslot => hbusy t' slot hslot
    · exact fun t' _ => Nat.succ_pos _
    · intro t' slot hproc
      have hslot : (s.handler t').elem = some slot := by
        change s.handler t' = .processing slot at hproc
        rw [hproc]
        rfl
      -- the tail is another slot than the one in hand
      have hne : s.queue.tail ≠ slot :=
        (h.wf.tail_ne_iff hroom (h.held t' slot hslot)).2 (hbusy t' slot hslot)
      refine (h.processed t' slot hproc).trans ?_
      exact congrArg some (Function.update_of_ne hne.symm _ _).symm

theorem Inv.dequeue (h : Inv s) (t : Nat) : Inv (s.step (.dequeue t)) := by
  by_cases ht : s.handler t = .notEmpty
  · have hpos := h.notEmpty t ht
    have hbusy : s.handler t ≠ .idle := by rw [ht]; exact nofun
    have hle := h.wf.num_le
    simp only [MlmeState.step, if_pos ht]
    refine inv_of_thread (h.others hbusy) rfl (fun _ => h.running t hbusy) (h.wf.pop hpos) ?_ ?_
      nofun ?_
    · change s.enqueued = (s.dequeued ++ [s.queue.entry s.queue.head]) ++
        (s.queue.pop maxLenOfMlmeQueue).contents maxLenOfMlmeQueue
      rw [h.fifo, h.wf.contents_pop hpos, List.append_assoc]
      rfl
    · intro slot hslot
      obtain rfl : s.queue.head = slot := Option.some.inj hslot
      refine ⟨h.wf.held_pop, ?_⟩
      change s.queue.num - 1 < maxLenOfMlmeQueue
      omega
    · intro slot hproc
      obtain rfl : s.queue.head = slot := HandlerPc.processing.inj hproc
      exact List.getLast?_concat
  · simpa only [MlmeState.step, if_neg ht] using h

theorem Inv.release (h : Inv s) (t : Nat) : Inv (s.step (.release t)) := by
  cases ht : s.handler t with
  | processing slot =>
    by_cases hcalling : (s.calling t).isNone
    · simp only [MlmeState.step, ht, if_pos hcalling]
      exact h.modifyElem (by rw [ht]; rfl) _ (Or.inl rfl)
    · simpa only [MlmeState.step, ht, if_neg hcalling] using h
  | _ => simpa only [MlmeState.step, ht] using h

theorem Inv.finish (h : Inv s) (t : Nat) : Inv (s.step (.finish t)) := by
  cases ht : s.handler t with
  | released slot =>
    simp only [MlmeState.step, ht]
    exact h.modifyElem (by rw [ht]; rfl) _ (Or.inr rfl)
  | _ => simpa only [MlmeState.step, ht] using h

/-- **One step keeps the invariant**, if it meets the condition. -/
theorem Inv.step (h : Inv s) (a : Action) (hok : StepOk s a) : Inv (s.step a) := by
  cases a with
  | call t call flags =>
    simp only [MlmeState.step]
    split
    · exact ⟨h.wf, h.fifo, h.alone, h.running, h.held, h.room, h.notEmpty, h.processed⟩
    · exact h
  | insert t => exact h.insert t hok
  | start t =>
    simp only [MlmeState.step]
    split
    case isTrue hstart =>
      obtain ⟨-, -, hrunning⟩ := hstart
      have hidle : ∀ t' ≠ t, s.handler t' = .idle := by
        intro t' _
        by_contra hbusy
        exact absurd (hrunning.symm.trans (h.running t' hbusy)) nofun
      exact inv_of_thread hidle rfl (fun _ => rfl) h.wf h.fifo nofun nofun nofun
    case isFalse => exact h
  | mlmeQueueEmpty t =>
    simp only [MlmeState.step]
    split
    case isTrue ht =>
      have hbusy : s.handler t ≠ .idle := by rw [ht]; exact nofun
      by_cases hzero : s.queue.num = 0
      · rw [if_pos hzero]
        exact h.setHandler hbusy rfl nofun
      · rw [if_neg hzero]
        exact h.setHandler hbusy rfl fun _ => Nat.pos_of_ne_zero hzero
    case isFalse => exact h
  | breakOff t =>
    simp only [MlmeState.step]
    split
    case isTrue ht => exact h.setHandler (by rw [ht]; exact nofun) rfl nofun
    case isFalse => exact h
  | dequeue t => exact h.dequeue t
  | release t => exact h.release t
  | finish t => exact h.finish t
  | leave t =>
    simp only [MlmeState.step]
    split
    case isTrue ht =>
      have hbusy : s.handler t ≠ .idle := by rw [ht]; exact nofun
      exact inv_of_thread (h.others hbusy) rfl (fun hno => absurd rfl hno) h.wf h.fifo nofun nofun
        nofun
    case isFalse => exact h
  | queueInit t =>
    cases ht : s.handler t with
    | processing slot => exact absurd ht (hok slot)
    | _ => simpa only [MlmeState.step, ht] using h

/-- An insertion that meets the condition overwrites nothing. -/
theorem Inv.noOverwrite (h : Inv s) (a : Action) (hok : StepOk s a) : NoOverwrite s a := by
  cases a with
  | insert t =>
    intro hcalling
    obtain ⟨hroom, hbusy⟩ := hok hcalling
    refine ⟨fun i hi => h.wf.tail_ne hroom hi, fun t' slot hslot => ?_⟩
    exact (h.wf.tail_ne_iff hroom (h.held t' slot hslot)).2 (hbusy t' slot hslot)
  | _ => trivial

/-- **One that does not meet it** overwrites the element in a handler's hand, or the count goes
beyond the length of the queue. -/
theorem Inv.not_sound_insert (h : Inv s) {t : Nat} (hno : ¬ StepOk s (.insert t)) :
    NoOverwrite s (.insert t) → ¬ QueueSound (s.step (.insert t)) := by
  intro hover hsound
  have hcalling : s.calling t ≠ none := by
    intro hnone
    exact hno fun hsome => absurd hnone hsome
  obtain ⟨call, hcall⟩ := Option.ne_none_iff_exists'.1 hcalling
  have hle : s.queue.num + 1 ≤ maxLenOfMlmeQueue := by
    have hnum := hsound.num_le
    simp only [MlmeState.step, hcall] at hnum
    exact hnum
  refine hno fun _ => ⟨hle, fun t' slot hslot => ?_⟩
  exact (h.wf.tail_ne_iff hle (h.held t' slot hslot)).1 ((hover hcalling).2 t' slot hslot)

end

/-! ## 6. Runs -/

/-- What a run of steps that meet the condition reaches. -/
theorem inv_of_stepsMeet {queue : MlmeQueue} {is : List Action}
    (hok : Run.StepsMeet MlmeState.step StepOk (.start queue) is) :
    Inv (Run.final MlmeState.step (.start queue) is) :=
  Run.invariant Inv (fun _ a hinv h => hinv.step a h) (inv_start queue) hok

/-- **The queue is sound as long as the insertions meet the condition**, and no longer: the first
insertion that does not meet it breaks it. -/
theorem runSound_of_stepsMeet (queue : MlmeQueue) (is : List Action)
    (hok : Run.StepsMeet MlmeState.step StepOk (.start queue) is) :
    RunSound (.start queue) is ∧
      ∀ t, ¬ StepOk (Run.final MlmeState.step (.start queue) is) (.insert t) →
        ¬ RunSound (.start queue) (is ++ [.insert t]) := by
  constructor
  · constructor
    · rintro done rest rfl
      exact (inv_of_stepsMeet (Run.stepsMeet_append.1 hok).1).sound
    · rintro done a rest rfl
      obtain ⟨hdone, hrest⟩ := Run.stepsMeet_append.1 hok
      exact (inv_of_stepsMeet hdone).noOverwrite a hrest.1
  · rintro t hno ⟨hsound, hover⟩
    have hend := hsound (is ++ [.insert t]) [] (List.append_nil _).symm
    rw [Run.final_append] at hend
    exact (inv_of_stepsMeet hok).not_sound_insert hno (hover is (.insert t) [] rfl) hend

namespace Example

/-- A message without a body. -/
def event : Call := .mlmeEnqueue 1 2 0 none 0

def emptyQueue : MlmeQueue := { num := 0, head := 0, tail := 0, entry := fun _ => {} }

/-- Thread 0 puts `n` elements in. -/
def fillUp (n : Nat) : List Action :=
  (List.replicate n [.call 0 event {}, .insert 0]).flatten

/-- One element goes in and out. -/
def oneEvent : List Action :=
  [.call 0 event {}, .insert 0, .start 1, .mlmeQueueEmpty 1, .dequeue 1, .release 1, .finish 1]

theorem runSound_oneEvent :
    RunSound (.start emptyQueue) oneEvent ∧
      ∀ t, ¬ StepOk (Run.final MlmeState.step (.start emptyQueue) oneEvent) (.insert t) →
        ¬ RunSound (.start emptyQueue) (oneEvent ++ [.insert t]) :=
  runSound_of_stepsMeet emptyQueue oneEvent
    ⟨trivial, fun _ => ⟨by decide, fun _ _ h => nomatch h⟩, trivial, trivial, trivial, trivial,
      trivial, trivial⟩

/-- The queue is filled, thread 1 takes the first element out, and while its action runs thread 0
puts in one element more. -/
def oneMore : List Action :=
  fillUp 40 ++ [.start 1, .mlmeQueueEmpty 1, .dequeue 1, .call 0 event {}]

/-- **The element that is being processed is overwritten.** -/
theorem not_runSound_oneMore : ¬ RunSound (.start emptyQueue) (oneMore ++ [.insert 0]) := by
  rintro ⟨-, hover⟩
  have hstep := hover oneMore (.insert 0) [] rfl
  have hcalling : (Run.final MlmeState.step (.start emptyQueue) oneMore).calling 0 ≠ none := by
    have hsome : ((Run.final MlmeState.step (.start emptyQueue) oneMore).calling 0).isSome = true :=
      by decide +kernel
    intro hnone
    rw [hnone] at hsome
    exact absurd hsome nofun
  have helem : ((Run.final MlmeState.step (.start emptyQueue) oneMore).handler 1).elem = some 0 := by
    decide +kernel
  have htail : (Run.final MlmeState.step (.start emptyQueue) oneMore).queue.tail = 0 := by
    decide +kernel
  exact (hstep hcalling).2 1 0 helem htail

end Example

end Mt7601.Mlme
