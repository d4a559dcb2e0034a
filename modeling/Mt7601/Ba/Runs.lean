/-
# The reorder lists over whole runs of operations

Every operation keeps every reorder list in order, and keeps the entries settled unless it strands a
buffered frame. From this the run rule gives the state of the lists after any sequence of
operations, and one frame more shows that the exception is a real one: the retransmission of a
stranded frame moves `LastIndSeq` onto the number at the head of the list.
-/
import Mt7601.Ba.Table

namespace Mt7601.Ba

open SeqNum

/-! ## 1. Steps -/

/-- A subframe gets past the size check and finds its session. -/
def FindsSession (ad : Adapter) (blk : RxBlk) : Prop :=
  (blk.amsdu = true ∨ blk.dataSize ≤ maxRxPktLen) ∧ blk.wcid < maxLenOfMacTable ∧
    ad.baRecWcidArray blk.wcid blk.tid ≠ 0

/-- **The operation strands a buffered frame**: it is a subframe that finds its session and, once the
session's time-outs are done, cannot be buffered, is not next in order, and precedes a frame that is
waiting. -/
def StrandsSuccessor (hz : OsHz) (ad : Adapter) : Op → Prop
  | .indicate blk now32 => FindsSession ad blk ∧
      Strands (afterTimeouts hz (ad.rx (ad.baRecWcidArray blk.wcid blk.tid)) blk now32) blk
  | _ => False

instance (ad : Adapter) (blk : RxBlk) : Decidable (FindsSession ad blk) :=
  inferInstanceAs (Decidable (_ ∧ _ ∧ _))

instance (hz : OsHz) (ad : Adapter) (op : Op) : Decidable (StrandsSuccessor hz ad op) :=
  match op with
  | .indicate _ _ => inferInstanceAs (Decidable (_ ∧ _))
  | .blockAckReq .. | .flush .. | .maintain .. | .sessionAdd .. | .tearDown .. | .idleTimeout .. =>
    inferInstanceAs (Decidable False)

theorem indicateAmpduPacket_eq {hz : OsHz} {ad : Adapter} {blk : RxBlk} {now : Ulong}
    (h : FindsSession ad blk) :
    indicateAmpduPacket hz ad blk now = ad.store (ad.baRecWcidArray blk.wcid blk.tid)
      (indicateOnEntry hz (ad.rx (ad.baRecWcidArray blk.wcid blk.tid)) blk now) := by
  obtain ⟨hsize, hwcid, hidx⟩ := h
  have hsize' : ¬ ((!blk.amsdu) = true ∧ maxRxPktLen < blk.dataSize) := by
    rintro ⟨hna, hlt⟩
    rcases hsize with ha | hle
    · simp [ha] at hna
    · omega
  unfold indicateAmpduPacket
  rw [if_neg hsize', if_pos hwcid, if_neg hidx]

/-- **One operation** keeps every list in order, and every entry settled unless it strands a frame. -/
theorem step_spec {hz : OsHz} {ad : Adapter} {op : Op} (h : Table Settled ad) :
    Table Ordered (step hz ad op) ∧
      (¬ StrandsSuccessor hz ad op → Table Settled (step hz ad op)) := by
  have both : Table Settled (step hz ad op) → Table Ordered (step hz ad op) ∧
      (¬ StrandsSuccessor hz ad op → Table Settled (step hz ad op)) :=
    fun hs => ⟨hs.imp fun _ he => he.toOrdered, fun _ => hs⟩
  cases op with
  | indicate blk now =>
    by_cases hf : FindsSession ad blk
    · obtain ⟨hmem, hacc, -, -, hpos⟩ := h.mapped _ _ hf.2.2
      have hind := indicateOnEntry_spec hz (ad.rx (ad.baRecWcidArray blk.wcid blk.tid)) blk now
        (h.entry _) hpos
      have hsess := hind.session.trans (afterTimeouts_settled hz
        (ad.rx (ad.baRecWcidArray blk.wcid blk.tid)) blk now (h.entry _)).2
      have hused : ¬ (ad.baRecEntry (ad.baRecWcidArray blk.wcid blk.tid)).recBaStatus =
          .recipientNone := by
        rw [hacc]
        simp
      simp only [step, indicateAmpduPacket_eq hf]
      refine ⟨(h.imp fun _ he => he.toOrdered).store _ hind.ordered hsess fun hn => absurd hn hused,
        fun hno => ?_⟩
      exact h.store _ (hind.settled fun hst => hno ⟨hf, hst⟩) hsess fun hn => absurd hn hused
    · refine both ?_
      simp only [step, indicateAmpduPacket]
      split
      · exact h.log
      · rename_i hsize
        split
        · rename_i hwcid
          split
          · exact h.log
          · rename_i hidx
            refine absurd ⟨?_, hwcid, hidx⟩ hf
            cases ha : blk.amsdu with
            | true => exact .inl rfl
            | false => exact .inr (by simpa [ha] using hsize)
        · exact h.log
  | blockAckReq halting wcid msgLen tid startSeq =>
    refine both ?_
    simp only [step, cntlEnqueueForRecv]
    split
    · exact h
    · split
      · exact h
      · split
        · exact h.store_of (f := fun rx => barOnEntry rx startSeq) (bar_settled _ startSeq (h.entry _))
            barOnEntry_empty
        · exact h
  | flush wcid tid now => exact both h.flushTimeout
  | maintain entryNone now => exact both h.maintain
  | sessionAdd wcid limit frame => exact both h.sessionAdd
  | tearDown wcid tid bPassive elemAlloc => exact both h.tearDown
  | idleTimeout idx now => exact both h.idleTimeout

/-! ## 2. Runs -/

/-- **The reorder list is well formed.** Distinct numbers, in increasing order from head to tail both
by distance from `LastIndSeq` and by the driver's own comparison, all of them in the half-open
window; `qlen` counts the blocks and fits the window; no block is linked before the first frame. -/
structure ReorderListOk (e : BaRecEntry) : Prop where
  distinct : e.keys.Nodup
  increasing : e.keys.Pairwise fun s t =>
    offset 4096 e.lastIndSeq s < offset 4096 e.lastIndSeq t
  smaller : e.keys.Pairwise fun s t => seqSmaller s t maxSeq = true
  window : ∀ s ∈ e.keys, 0 < offset 4096 e.lastIndSeq s ∧
    offset 4096 e.lastIndSeq s ≤ e.baWinSize.toNat
  qlen_eq : e.list.qlen = e.list.next.length
  qlen_le : e.list.qlen ≤ e.baWinSize.toNat
  reset : e.lastIndSeq = resetRcvSeq → e.list.next = []

theorem Ordered.reorderListOk {e : BaRecEntry} (h : Ordered e) : ReorderListOk e where
  distinct := h.window.nodup
  increasing := h.window.sorted
  smaller := by
    have hw := e.winSize_lt
    exact (h.window.pairwise_precedes (H := 2048) (by omega)).imp seqSmaller_iff.mpr
  window := fun s hs => ⟨h.window.pos s hs, h.window.le s hs⟩
  qlen_eq := h.linked
  qlen_le := by
    rw [h.linked]
    simpa [BaRecEntry.keys] using h.window.length_le
  reset := h.reset

/-- After a run whose operations strand nothing, the table is settled. -/
theorem settled_of_run {hz : OsHz} {freelist : Nat} {ops : List Op}
    (hops : Run.StepsMeet (step hz) (fun ad op => ¬ StrandsSuccessor hz ad op)
      (baTableInit freelist) ops) :
    Table Settled (Run.final (step hz) (baTableInit freelist) ops) :=
  Run.invariant (Table Settled) (fun _ _ h hok => (step_spec h).2 hok) (table_init freelist) hops

/-- No time-out is due at the moment the timer was last restarted. -/
theorem rtmpTimeAfter_add {a : Ulong} {n : Nat} (hn : n < 2 ^ 63) :
    rtmpTimeAfter a (a + BitVec.ofNat 64 n) = false := by
  have hcancel : a + BitVec.ofNat 64 n - a = BitVec.ofNat 64 n := by
    rw [BitVec.add_comm, BitVec.add_sub_cancel]
  rw [rtmpTimeAfter, hcancel, show (0 : BitVec 64) = 0#64 from rfl, BitVec.slt_zero_eq_msb, BitVec.msb_eq_decide, BitVec.toNat_ofNat,
    Nat.mod_eq_of_lt (by omega)]
  simp
  omega

theorem flush_not_due (hz : OsHz) (rx : Rx) :
    baFlushReorderingTimeoutMpdus hz rx rx.entry.lastIndSeqAtTimer = rx := by
  have hall : flushAllDue hz rx.entry rx.entry.lastIndSeqAtTimer = false := by
    have := hz.le
    rw [flushAllDue, rtmpTimeAfter_add, Bool.false_and]
    simp only [OsHz.maxReorderingPacketTimeout]
    omega
  have hone : flushOneDue hz rx.entry rx.entry.lastIndSeqAtTimer = false := by
    have := hz.le
    rw [flushOneDue, rtmpTimeAfter_add, Bool.false_and]
    simp only [OsHz.reorderingPacketTimeout]
    omega
  simp [baFlushReorderingTimeoutMpdus, hall, hone]

/-- **A stranded frame that is received once more ends outside the window.** `LastIndSeq` moves onto
its number while the buffered copy stays at the head of the list. -/
theorem stranded_received_again (hz : OsHz) {rx : Rx} {blk : RxBlk}
    (h : Ordered rx.entry) (hlast : rx.entry.lastIndSeq < 4096)
    (hmem : (rx.entry.lastIndSeq + 1) % 4096 ∈ rx.entry.keys)
    (hseq : blk.sequence.val = (rx.entry.lastIndSeq + 1) % 4096) :
    ¬ ReorderListOk (indicateOnEntry hz rx blk rx.entry.lastIndSeqAtTimer).entry := by
  -- the waiting copy is the head: nothing in the window comes before it
  obtain ⟨head, rest, hnext⟩ : ∃ head rest, rx.entry.list.next = head :: rest := by
    cases hnil : rx.entry.list.next with
    | nil => simp [BaRecEntry.keys, hnil] at hmem
    | cons head rest => exact ⟨head, rest, rfl⟩
  have hone : offset 4096 rx.entry.lastIndSeq ((rx.entry.lastIndSeq + 1) % 4096) = 1 := by
    rw [offset_mod (by decide), offset_add (by decide)]
  have hkeys : rx.entry.keys = head.sequence.val :: rest.map fun m => m.sequence.val := by
    simp [BaRecEntry.keys, hnext]
  have hhead : head.sequence.val = blk.sequence.val := by
    have hwin := h.window
    rw [hkeys] at hwin hmem
    rcases List.mem_cons.mp hmem with heq | hin
    · rw [hseq, heq]
    · have hlt := hwin.head_lt hin
      have hpos := hwin.pos _ List.mem_cons_self
      omega
  -- so the in-order loop does not move
  have hreset : rx.entry.lastIndSeq ≠ resetRcvSeq := by
    simp only [resetRcvSeq]
    omega
  have hstop : seqStepOne head.sequence blk.sequence maxSeq = false := by
    rw [Bool.eq_false_iff, ne_eq, seqStepOne_iff, hhead]
    have := blk.sequence.isLt
    omega
  have hresult : (indicateOnEntry hz rx blk rx.entry.lastIndSeqAtTimer).entry.list.next =
        rx.entry.list.next ∧
      (indicateOnEntry hz rx blk rx.entry.lastIndSeqAtTimer).entry.lastIndSeq =
        blk.sequence.val := by
    have hflush := flush_not_due hz
      { rx with entry := { rx.entry with rcvSeq := blk.sequence } }
    simp only at hflush
    simp only [indicateOnEntry, hflush, indicateBySequence, Rx.setLastIndSeqAtTimer,
      if_neg hreset, if_pos (seqStepOne_iff.mpr hseq), Rx.setLastIndSeq, Rx.note,
      indicateInOrderFrom, baIndicateReorderingMpdusInOrder, hnext, List.length_cons, inOrderLoop,
      baReorderingMpduProbe, List.head?_cons, hstop]
    simp [hnext]
  intro hok
  have hin : blk.sequence.val ∈
      (indicateOnEntry hz rx blk rx.entry.lastIndSeqAtTimer).entry.keys := by
    rw [BaRecEntry.keys, hresult.1, hnext, ← hhead]
    exact List.mem_cons_self
  have hpos := (hok.window _ hin).1
  rw [hresult.2, offset_self (by decide)] at hpos
  exact absurd hpos (Nat.lt_irrefl 0)

namespace Example

/-- A data frame of traffic class `0` from the peer `1`. -/
def frame (sequence : SeqNo) (eap : Bool) : Op :=
  .indicate ⟨sequence, 1, 0, 100, false, eap, 0, 0⟩ 0

def hz : OsHz := ⟨100, OsHz.hundred_le⟩

/-- A session is set up, its first frame is 3, and 6 waits for 4 and 5. -/
def waiting : List Op :=
  [.sessionAdd 1 64 ⟨0, 64, 0⟩, frame 3 false, frame 6 false]

end Example

end Mt7601.Ba
