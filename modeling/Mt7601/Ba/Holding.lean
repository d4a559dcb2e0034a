/-
# What the reorder lists hold

A frame gets into a reorder list in one place and leaves it in one, so whatever is true of every
frame that goes in is true of every frame that waits, and of every frame that is handed up out of a
list. `Holds P Q` says so of a block (`P`) and of a frame that is handed up past the lists (`Q`); it
looks at the lists and at the log and at nothing else of the table.
-/
import Mt7601.Ba.Pool

namespace Mt7601.Ba

open SeqNum

/-! ## 1. One entry -/

/-- The block a frame is put in the list with. -/
def RxBlk.mpdu (blk : RxBlk) : ReorderingMpdu :=
  ⟨blk.pRxPacket, blk.sequence, blk.amsdu, blk.opMode⟩

/-- **What is held and what was handed up**: `P` of the blocks in the list and of those that were
taken from it, `Q` of the frames that were handed up past it. -/
structure Rx.Holds (P : ReorderingMpdu → Prop) (Q : RxBlk → Prop) (rx : Rx) : Prop where
  waiting : ∀ m ∈ rx.entry.list.next, P m
  announced : ∀ m, Disposal.announce m ∈ rx.log → P m
  legacy : ∀ blk, Disposal.legacy blk ∈ rx.log → Q blk

/-- A frame may go into a list, or past it. -/
structure RxBlk.Fits (P : ReorderingMpdu → Prop) (Q : RxBlk → Prop) (blk : RxBlk) : Prop where
  mpdu : blk.eap = false → P blk.mpdu
  legacy : Q blk

section

variable {P : ReorderingMpdu → Prop} {Q : RxBlk → Prop} {rx rx' : Rx} {blk : RxBlk}

theorem Rx.Holds.congr (h : rx.Holds P Q) (hlist : rx'.entry.list = rx.entry.list)
    (hlog : rx'.log = rx.log) : rx'.Holds P Q where
  waiting := by rw [hlist]; exact h.waiting
  announced := by rw [hlog]; exact h.announced
  legacy := by rw [hlog]; exact h.legacy

/-- What is taken from the front of the list was in it. -/
theorem Took.holds {front : List ReorderingMpdu} (htook : Took rx rx' front) (h : rx.Holds P Q) :
    rx'.Holds P Q := by
  have hnext : ∀ m, m ∈ front ∨ m ∈ rx'.entry.list.next → P m := by
    intro m hm
    refine h.waiting m ?_
    rw [htook.next]
    exact List.mem_append.2 hm
  constructor
  · intro m hm
    exact hnext m (.inr hm)
  · intro m hm
    rw [htook.log] at hm
    rcases List.mem_append.1 hm with hm | hm
    · exact h.announced m hm
    · obtain ⟨m', hm', heq⟩ := List.mem_map.1 hm
      cases heq
      exact hnext m (.inl hm')
  · intro blk hblk
    rw [htook.log] at hblk
    rcases List.mem_append.1 hblk with hblk | hblk
    · exact h.legacy blk hblk
    · obtain ⟨m, -, heq⟩ := List.mem_map.1 hblk
      cases heq

theorem Rx.Holds.noteLegacy (h : rx.Holds P Q) (hblk : Q blk) :
    (rx.note (.legacy blk)).Holds P Q where
  waiting := h.waiting
  announced := by
    intro m hm
    rcases List.mem_append.1 hm with hm | hm
    · exact h.announced m hm
    · cases List.mem_singleton.1 hm
  legacy := by
    intro blk' hblk'
    rcases List.mem_append.1 hblk' with hblk' | hblk'
    · exact h.legacy blk' hblk'
    · cases List.mem_singleton.1 hblk'
      exact hblk

theorem Rx.Holds.noteRelease {p : Packet} (h : rx.Holds P Q) :
    (rx.note (.release p)).Holds P Q where
  waiting := h.waiting
  announced := by
    intro m hm
    rcases List.mem_append.1 hm with hm | hm
    · exact h.announced m hm
    · cases List.mem_singleton.1 hm
  legacy := by
    intro blk' hblk'
    rcases List.mem_append.1 hblk' with hblk' | hblk'
    · exact h.legacy blk' hblk'
    · cases List.mem_singleton.1 hblk'

/-- **The place where a frame goes in**; an EAPOL frame never does. -/
theorem enqueue_holds (hlinked : rx.entry.Linked) (h : rx.Holds P Q) (hblk : blk.Fits P Q) :
    (baEnqueueReorderingPacket rx blk).Holds P Q := by
  rw [baEnqueueReorderingPacket]
  dsimp only
  by_cases hbuf : (decide (0 < rx.freelist) && !blk.eap) = true
  · rw [if_pos hbuf]
    rw [Bool.and_eq_true, decide_eq_true_eq, Bool.not_eq_true'] at hbuf
    rw [baReorderingMpduInsertsorted]
    cases hscan : insertsortedScan rx.entry.list.next
        ⟨blk.pRxPacket, blk.sequence, blk.amsdu, blk.opMode⟩ with
    | none => exact (h.noteRelease (p := blk.pRxPacket)).congr rfl rfl
    | some next =>
      have hperm := perm_insertsortedScan hscan
      refine ⟨?_, h.announced, h.legacy⟩
      intro m hm
      rcases List.mem_cons.1 (hperm.mem_iff.1 hm) with hm | hm
      · rw [hm]
        exact hblk.mpdu hbuf.2
      · exact h.waiting m hm
  · rw [if_neg hbuf]
    obtain ⟨-, front, htook⟩ := leSeq_took { rx with freelist := rx.freelist - 1 } hlinked
      blk.sequence
    have hdrained := htook.holds (P := P) (Q := Q) (h.congr rfl rfl)
    exact Rx.Holds.noteLegacy (hdrained.congr rfl rfl) hblk.legacy

theorem indicateInOrderFrom_holds (start : Nat) (hlinked : rx.entry.Linked) (h : rx.Holds P Q) :
    (indicateInOrderFrom rx start).Holds P Q := by
  obtain ⟨front, htook, -, -⟩ := indicateInOrderFrom_took _ hlinked start
  exact htook.holds h

theorem flush_holds (hz : OsHz) (now : Ulong) (hlinked : rx.entry.Linked) (h : rx.Holds P Q) :
    (baFlushReorderingTimeoutMpdus hz rx now).Holds P Q := by
  rw [baFlushReorderingTimeoutMpdus]
  split
  · exact h
  · split
    · exact ((refresh_took rx hlinked).holds h).congr rfl rfl
    · split
      · obtain ⟨-, front, htook⟩ := leSeq_took rx hlinked ((rx.entry.lastIndSeq + 1) &&& maxSeq)
        exact indicateInOrderFrom_holds _ htook.linked ((htook.holds h).congr rfl rfl)
      · exact h

theorem bar_holds (startSeq : SeqNo) (hlinked : rx.entry.Linked) (h : rx.Holds P Q) :
    (barOnEntry rx startSeq).Holds P Q := by
  rw [barOnEntry]
  split
  · obtain ⟨-, front, htook⟩ := leSeq_took rx hlinked startSeq
    exact (htook.holds h).congr rfl rfl
  · exact h

theorem indicateBySequence_holds (now : Ulong) (hlinked : rx.entry.Linked) (h : rx.Holds P Q)
    (hblk : blk.Fits P Q) : (indicateBySequence rx blk now).Holds P Q := by
  rw [indicateBySequence]
  dsimp only
  split
  · -- the first frame of the session
    exact Rx.Holds.noteLegacy (h.congr rfl rfl) hblk.legacy
  · split
    · -- I. in order
      have hnote : ((rx.setLastIndSeq blk.sequence).note (.legacy blk)).Holds P Q :=
        Rx.Holds.noteLegacy (h.congr rfl rfl) hblk.legacy
      have hfollowed := indicateInOrderFrom_holds blk.sequence (by exact hlinked) hnote
      exact hfollowed.congr rfl rfl
    · split
      · -- II. duplicated, III. old
        exact Rx.Holds.noteRelease (h.congr rfl rfl)
      · split
        · -- IV. within the window
          exact enqueue_holds hlinked h hblk
        · -- V. beyond the window
          obtain ⟨-, front, htook⟩ := leSeq_took rx hlinked (winStartSeq rx.entry blk.sequence)
          have hmoved : (((baIndicateReorderingMpdusLeSeq rx
              (winStartSeq rx.entry blk.sequence)).setLastIndSeq
                (winStartSeq rx.entry blk.sequence)).setLastIndSeqAtTimer now).Holds P Q :=
            (htook.holds h).congr rfl rfl
          refine indicateInOrderFrom_holds _ ?_ (enqueue_holds htook.linked hmoved hblk)
          exact (enqueue_exchange blk (by exact htook.linked)).linked

theorem indicateOnEntry_holds (hz : OsHz) (now : Ulong) (hlinked : rx.entry.Linked)
    (h : rx.Holds P Q) (hblk : blk.Fits P Q) : (indicateOnEntry hz rx blk now).Holds P Q := by
  have hseq : Rx.Holds P Q { rx with entry := { rx.entry with rcvSeq := blk.sequence } } :=
    h.congr rfl rfl
  have hflushed := flush_holds hz now (by exact hlinked) hseq
  refine indicateBySequence_holds now ?_ (hflushed.congr rfl rfl) hblk
  exact (flush_exchange (by exact hlinked)).linked

end

/-! ## 2. The table -/

/-- The same of the lists of all entries. -/
structure Adapter.Holds (P : ReorderingMpdu → Prop) (Q : RxBlk → Prop) (ad : Adapter) : Prop where
  waiting : ∀ i, ∀ m ∈ (ad.baRecEntry i).list.next, P m
  announced : ∀ m, Disposal.announce m ∈ ad.log → P m
  legacy : ∀ blk, Disposal.legacy blk ∈ ad.log → Q blk

section

variable {P : ReorderingMpdu → Prop} {Q : RxBlk → Prop} {ad ad' : Adapter}

/-- Of the table only the lists and the log matter. -/
theorem Adapter.Holds.congr (h : ad.Holds P Q)
    (hlist : ∀ i, (ad'.baRecEntry i).list = (ad.baRecEntry i).list) (hlog : ad'.log = ad.log) :
    ad'.Holds P Q where
  waiting := by
    intro i
    rw [hlist]
    exact h.waiting i
  announced := by rw [hlog]; exact h.announced
  legacy := by rw [hlog]; exact h.legacy

theorem Adapter.Holds.rx (h : ad.Holds P Q) (idx : Nat) : (ad.rx idx).Holds P Q :=
  ⟨h.waiting idx, h.announced, h.legacy⟩

theorem Adapter.Holds.store {rx : Rx} (h : ad.Holds P Q) (idx : Nat) (hrx : rx.Holds P Q) :
    (ad.store idx rx).Holds P Q := by
  refine ⟨fun i => ?_, hrx.announced, hrx.legacy⟩
  have hentry : (ad.store idx rx).baRecEntry i = if i = idx then rx.entry
    else ad.baRecEntry i := rfl
  rw [hentry]
  split
  · exact hrx.waiting
  · exact h.waiting i

theorem Adapter.Holds.setWcidArray {w i : Nat} {t : Fin 16} (h : ad.Holds P Q) :
    (ad.setWcidArray w t i).Holds P Q :=
  h.congr (fun _ => rfl) rfl

theorem Adapter.Holds.modify {idx : Nat} {f : BaRecEntry → BaRecEntry} (h : ad.Holds P Q)
    (hf : ∀ e, (f e).list = e.list) : (ad.modifyEntry idx f).Holds P Q := by
  refine h.congr (fun i => ?_) rfl
  have hentry : (ad.modifyEntry idx f).baRecEntry i =
    if i = idx then f (ad.baRecEntry i) else ad.baRecEntry i := rfl
  rw [hentry]
  split
  · exact hf _
  · rfl

theorem Adapter.Holds.note (h : ad.Holds P Q) {d : Disposal} (hannounce : ∀ m, d ≠ .announce m)
    (hlegacy : ∀ blk, d = .legacy blk → Q blk) :
    Adapter.Holds P Q { ad with log := ad.log ++ [d] } := by
  refine ⟨h.waiting, fun m hm => ?_, fun blk hblk => ?_⟩
  · rcases List.mem_append.1 hm with hm | hm
    · exact h.announced m hm
    · exact absurd (List.mem_singleton.1 hm).symm (hannounce m)
  · rcases List.mem_append.1 hblk with hblk | hblk
    · exact h.legacy blk hblk
    · exact hlegacy blk (List.mem_singleton.1 hblk).symm

theorem flushTimeout_holds {hz : OsHz} (hacc : Accounted ad) (h : ad.Holds P Q) (wcid : Nat)
    (tid : Fin 16) (now : Ulong) : (flushTimeout hz ad wcid tid now).Holds P Q :=
  h.store _ (flush_holds hz now (hacc.table.entry _) (h.rx _))

theorem maintain_holds {hz : OsHz} (hacc : Accounted ad) (h : ad.Holds P Q)
    (entryNone : Nat → Bool) (now : Ulong) :
    (baReOrderingBufferMaintain hz ad entryNone now).Holds P Q := by
  rw [baReOrderingBufferMaintain]
  -- the accounts are carried along for the count of each list
  refine (Run.invariant_always (fun ad => Accounted ad ∧ Adapter.Holds P Q ad)
    (fun ad' wcid hinv => ?_) ⟨hacc, h⟩).2
  split
  · exact hinv
  · refine Run.invariant_always (fun ad => Accounted ad ∧ Adapter.Holds P Q ad)
      (fun ad' tid hinv => ?_) hinv
    exact ⟨(flush_booked hinv.1 wcid (Fin.ofNat 16 tid) now).accounted hinv.1,
      flushTimeout_holds hinv.1 hinv.2 wcid (Fin.ofNat 16 tid) now⟩

theorem refresh_holds (hacc : Accounted ad) (h : ad.Holds P Q) (idx : Nat) :
    (ad.store idx (baRefreshReorderingMpdus (ad.rx idx))).Holds P Q :=
  h.store idx ((refresh_took (ad.rx idx) (hacc.table.entry idx)).holds (h.rx idx))

theorem sessionAdd_holds (hacc : Accounted ad) (h : ad.Holds P Q) (wcid : Nat) (limit : UInt8)
    (frame : FrameAddbaReq) : (baRecSessionAdd ad wcid limit frame).1.Holds P Q := by
  dsimp only [baRecSessionAdd]
  by_cases hidx : ad.baRecWcidArray wcid frame.tid = 0
  · rw [if_pos hidx]
    rcases alloc_spec (ad.baRecWcidArray wcid frame.tid) hacc.table with ⟨i, -, -, hall⟩ | hall
    · rw [hall]
      have hcount : Adapter.Holds P Q { ad with numAsRecipient := ad.numAsRecipient + 1 } :=
        h.congr (fun _ => rfl) rfl
      have huse : Adapter.Holds P Q ({ ad with
          numAsRecipient := ad.numAsRecipient + 1 }.modifyEntry i
            fun e => { e with recBaStatus := .recipientUsed }) := hcount.modify fun _ => rfl
      dsimp only
      exact Adapter.Holds.setWcidArray (Adapter.Holds.modify huse fun _ => rfl)
    · rw [hall]
      exact h
  · rw [if_neg hidx]
    dsimp only
    exact Adapter.Holds.setWcidArray (Adapter.Holds.modify (refresh_holds hacc h _) fun _ => rfl)

theorem freeRecEntry_holds (h : ad.Holds P Q) (idx : Nat) :
    (baTableFreeRecEntry ad idx).Holds P Q := by
  rw [baTableFreeRecEntry]
  split
  · exact h
  · dsimp only
    split
    · exact h
    · have hclear : Adapter.Holds P Q
          { ad.setWcidArray (ad.baRecEntry idx).wcid (ad.baRecEntry idx).tid 0 with
            numAsRecipient := ad.numAsRecipient - 1 } := h.congr (fun _ => rfl) rfl
      exact hclear.modify fun _ => rfl

theorem tearDown_holds (hacc : Accounted ad) (h : ad.Holds P Q) (wcid : Nat) (tid : Fin 16)
    (bPassive elemAlloc : Bool) :
    (baRecSessionTearDown ad wcid tid bPassive elemAlloc).Holds P Q := by
  dsimp only [baRecSessionTearDown]
  split
  · exact h
  · split
    · exact h
    · split
      · split
        · exact h
        · refine freeRecEntry_holds ?_ _
          exact Adapter.Holds.setWcidArray
            (Adapter.Holds.modify (refresh_holds hacc h _) fun _ => rfl)
      · exact freeRecEntry_holds h _

theorem idleTimeout_holds (hacc : Accounted ad) (h : ad.Holds P Q) (idx : Nat) (now : Ulong) :
    (baRecSessionIdleTimeout ad idx now).Holds P Q := by
  dsimp only [baRecSessionIdleTimeout]
  split
  · exact refresh_holds hacc h idx
  · exact h

/-- The frame an operation brings in may go into a list, or past it. -/
def Op.Fits (P : ReorderingMpdu → Prop) (Q : RxBlk → Prop) : Op → Prop
  | .indicate blk _ => blk.Fits P Q
  | _ => True

/-- **What the lists hold, after a step.** -/
theorem step_holds (hz : OsHz) {op : Op} (hacc : Accounted ad) (h : ad.Holds P Q)
    (hop : op.Fits P Q) : (step hz ad op).Holds P Q := by
  cases op with
  | indicate blk now =>
    have hrelease : Adapter.Holds P Q { ad with log := ad.log ++ [.release blk.pRxPacket] } := by
      refine h.note ?_ ?_
      · intro m hm
        cases hm
      · intro blk' hblk'
        cases hblk'
    rw [step, indicateAmpduPacket]
    split
    · exact hrelease
    · split
      · dsimp only
        split
        · refine h.note ?_ ?_
          · intro m hm
            cases hm
          · intro blk' hblk'
            cases hblk'
            exact hop.legacy
        · exact h.store _ (indicateOnEntry_holds hz now (hacc.table.entry _) (h.rx _) hop)
      · exact hrelease
  | blockAckReq halting wcid msgLen tid startSeq =>
    rw [step, cntlEnqueueForRecv]
    split
    · exact h
    · split
      · exact h
      · split
        · exact h.store _ (bar_holds startSeq (hacc.table.entry _) (h.rx _))
        · exact h
  | flush wcid tid now => exact flushTimeout_holds hacc h wcid tid now
  | maintain entryNone now => exact maintain_holds hacc h entryNone now
  | sessionAdd wcid limit frame => exact sessionAdd_holds hacc h wcid limit frame
  | tearDown wcid tid bPassive elemAlloc => exact tearDown_holds hacc h wcid tid bPassive elemAlloc
  | idleTimeout idx now => exact idleTimeout_holds hacc h idx now

end

end Mt7601.Ba
