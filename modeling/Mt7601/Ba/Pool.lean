/-
# Reordering blocks and packets are conserved

A block is on the free list of the pool or holds a packet of one reorder list, and a packet that was
received is in one reorder list, has been handed up, or has been released. Both are sums over the
table, and an operation is followed through them as an exchange: what it hands out of a list, what
it takes from the pool, what it writes to the log.

There is one exception. `ba_enqueue_reordering_packet` takes a block before it looks at the kind of
the frame, and the branch of an EAPOL frame never gives it back (`Leaks`). A block that is lost
this way never returns, so what a run has lost is the number of its steps that leaked.
-/
import Mt7601.Ba.Drain
import Mt7601.Ba.Runs
import Mathlib.Algebra.BigOperators.Group.Finset.Basic
import Mathlib.Algebra.BigOperators.Ring.Finset

namespace Mt7601.Ba

open SeqNum

/-! ## 1. What is counted -/

def Disposal.packet : Disposal → Packet
  | .announce mpdu => mpdu.pPacket
  | .legacy blk => blk.pRxPacket
  | .release packet => packet

/-- The packet was handed up. -/
def Disposal.indicates (p : Packet) : Disposal → Bool
  | .announce mpdu => mpdu.pPacket = p
  | .legacy blk => blk.pRxPacket = p
  | .release _ => false

/-- The packet was given back to the system. -/
def Disposal.releases (p : Packet) : Disposal → Bool
  | .release packet => packet = p
  | _ => false

theorem countP_disposed (p : Packet) (log : List Disposal) :
    log.countP (Disposal.indicates p) + log.countP (Disposal.releases p) =
      (log.map Disposal.packet).count p := by
  induction log with
  | nil => rfl
  | cons d log ih =>
    rw [List.countP_cons, List.countP_cons, List.map_cons, List.count_cons, ← ih]
    cases d with
    | announce mpdu =>
      simp only [Disposal.indicates, Disposal.releases, Disposal.packet, decide_eq_true_eq,
        beq_iff_eq, Bool.false_eq_true, if_false]
      omega
    | legacy blk =>
      simp only [Disposal.indicates, Disposal.releases, Disposal.packet, decide_eq_true_eq,
        beq_iff_eq, Bool.false_eq_true, if_false]
      omega
    | release packet =>
      simp only [Disposal.indicates, Disposal.releases, Disposal.packet, decide_eq_true_eq,
        beq_iff_eq, Bool.false_eq_true, if_false]
      omega

namespace BaRecEntry

/-- The packets that wait in the list. -/
def packets (e : BaRecEntry) : List Packet := e.list.next.map ReorderingMpdu.pPacket

/-- The count of the list is right. -/
def Linked (e : BaRecEntry) : Prop := e.list.qlen = e.list.next.length

end BaRecEntry

instance : EntryLaw BaRecEntry.Linked where
  congr := fun h hlist _ _ => by rw [BaRecEntry.Linked, hlist]; exact h
  empty := fun hlist _ => by rw [BaRecEntry.Linked, hlist]; rfl
  linked := fun h => h

/-- What an operation on one entry exchanges: `received` comes in, and `lost` blocks get lost. -/
structure Exchange (rx rx' : Rx) (received : List Packet) (lost : Nat) : Prop where
  blocks : rx'.freelist + rx'.entry.list.next.length + lost =
    rx.freelist + rx.entry.list.next.length
  packets : ∀ p, rx'.entry.packets.count p + (rx'.log.map Disposal.packet).count p =
    rx.entry.packets.count p + (rx.log.map Disposal.packet).count p + received.count p
  linked : rx'.entry.Linked
  session : rx'.entry.session = rx.entry.session

theorem Took.exchange {rx rx' : Rx} {front : List ReorderingMpdu} (h : Took rx rx' front) :
    Exchange rx rx' [] 0 where
  blocks := by
    rw [h.freed, h.next, List.length_append]
    omega
  packets := by
    intro p
    have hfront : (front.map Disposal.announce).map Disposal.packet =
        front.map ReorderingMpdu.pPacket := by
      rw [List.map_map]
      rfl
    rw [h.log, BaRecEntry.packets, BaRecEntry.packets, h.next, List.map_append, List.map_append,
      hfront, List.count_append, List.count_append, List.count_nil]
    omega
  linked := h.linked
  session := h.session

theorem Exchange.trans {rx₁ rx₂ rx₃ : Rx} {ps₁ ps₂ : List Packet} {lost₁ lost₂ : Nat}
    (h₁ : Exchange rx₁ rx₂ ps₁ lost₁) (h₂ : Exchange rx₂ rx₃ ps₂ lost₂) :
    Exchange rx₁ rx₃ (ps₁ ++ ps₂) (lost₁ + lost₂) where
  blocks := by
    have hb₁ := h₁.blocks
    have hb₂ := h₂.blocks
    omega
  packets := by
    intro p
    have hp₁ := h₁.packets p
    have hp₂ := h₂.packets p
    rw [List.count_append]
    omega
  linked := h₂.linked
  session := h₂.session.trans h₁.session

/-- The packet goes to the log. -/
theorem Exchange.note {rx : Rx} (d : Disposal) (h : rx.entry.Linked) :
    Exchange rx (rx.note d) [d.packet] 0 where
  blocks := rfl
  packets := by
    intro p
    rw [Rx.note, List.map_append, List.count_append]
    exact (Nat.add_assoc _ _ _).symm
  linked := h
  session := rfl

/-- What is set of the numbers and the timer is not exchanged. -/
theorem Exchange.congr {rx rx₁ rx₂ : Rx} {ps : List Packet} {lost : Nat}
    (h : Exchange rx rx₁ ps lost) (hlist : rx₂.entry.list = rx₁.entry.list)
    (hlog : rx₂.log = rx₁.log) (hfree : rx₂.freelist = rx₁.freelist)
    (hsess : rx₂.entry.session = rx₁.entry.session) : Exchange rx rx₂ ps lost where
  blocks := by rw [hfree, hlist]; exact h.blocks
  packets := by
    intro p
    rw [BaRecEntry.packets, hlist, hlog]
    exact h.packets p
  linked := by rw [BaRecEntry.Linked, hlist]; exact h.linked
  session := hsess.trans h.session

theorem Exchange.refl {rx : Rx} (h : rx.entry.Linked) : Exchange rx rx [] 0 :=
  (Took.refl h).exchange

/-! ## 2. One entry -/

/-- **A frame that reaches the reorder buffer** is kept, given back, or handed up past the list; an
EAPOL frame costs the block that was taken for it. -/
theorem enqueue_exchange {rx : Rx} (blk : RxBlk) (h : rx.entry.Linked) :
    Exchange rx (baEnqueueReorderingPacket rx blk) [blk.pRxPacket]
      (if blk.eap = true ∧ 0 < rx.freelist then 1 else 0) := by
  rw [baEnqueueReorderingPacket]
  dsimp only
  by_cases hbuf : (decide (0 < rx.freelist) && !blk.eap) = true
  · rw [if_pos hbuf]
    rw [Bool.and_eq_true, decide_eq_true_eq, Bool.not_eq_true'] at hbuf
    rw [if_neg (by rw [hbuf.2]; simp), baReorderingMpduInsertsorted]
    cases hscan : insertsortedScan rx.entry.list.next
        ⟨blk.pRxPacket, blk.sequence, blk.amsdu, blk.opMode⟩ with
    | none =>
      -- the number is there already: the packet and the block go back
      refine (Exchange.note (.release blk.pRxPacket) h).congr rfl rfl ?_ rfl
      change rx.freelist - 1 + 1 = rx.freelist
      omega
    | some next =>
      have hperm := perm_insertsortedScan hscan
      refine ⟨?_, fun p => ?_, ?_, rfl⟩
      · change rx.freelist - 1 + next.length + 0 = _
        rw [hperm.length_eq, List.length_cons]
        omega
      · change (next.map ReorderingMpdu.pPacket).count p + _ = _
        rw [(hperm.map ReorderingMpdu.pPacket).count_eq, List.map_cons, List.count_cons,
          List.count_singleton, BaRecEntry.packets]
        exact Nat.add_right_comm _ _ _
      · change rx.entry.list.qlen + 1 = next.length
        rw [hperm.length_eq, List.length_cons, h]
  · rw [if_neg hbuf]
    -- the block that was taken is not used
    obtain ⟨-, front, htook⟩ := leSeq_took { rx with freelist := rx.freelist - 1 } h
      blk.sequence
    have hexch := htook.exchange
    have hlast : Exchange _ ((baIndicateReorderingMpdusLeSeq
        { rx with freelist := rx.freelist - 1 } blk.sequence).setLastIndSeq blk.sequence) [] 0 :=
      hexch.congr rfl rfl rfl rfl
    have hlegacy := hlast.trans (Exchange.note (.legacy blk) hexch.linked)
    refine ⟨?_, hlegacy.packets, hlegacy.linked, hlegacy.session⟩
    have hblocks := hlegacy.blocks
    dsimp only at hblocks
    rw [Bool.and_eq_true, decide_eq_true_eq, Bool.not_eq_true', not_and, Bool.not_eq_false]
      at hbuf
    split
    · omega
    · rename_i hno
      have hempty : rx.freelist = 0 := by
        by_contra hne
        exact hno ⟨hbuf (Nat.pos_of_ne_zero hne), Nat.pos_of_ne_zero hne⟩
      omega

/-- Where the window starts when it ends with `sequence`: `WinStartSeq`. -/
def winStartSeq (e : BaRecEntry) (sequence : SeqNo) : Nat :=
  let tmpSeq : Int := (sequence.val : Int) - e.baWinSize.toNat - 1
  let tmpSeq := if tmpSeq < 0 then maxSeq + 1 + tmpSeq else tmpSeq
  (tmpSeq + 1).toNat &&& maxSeq

/-- The number is neither the first of the session, nor the next, nor an old one. -/
def OutOfOrder (e : BaRecEntry) (sequence : SeqNo) : Prop :=
  e.lastIndSeq ≠ resetRcvSeq ∧ seqStepOne sequence e.lastIndSeq maxSeq = false ∧
    ¬ (sequence.val = e.lastIndSeq ∨ seqSmaller sequence e.lastIndSeq maxSeq = true)

/-- The window has to move for the number. -/
def BeyondWindow (e : BaRecEntry) (sequence : SeqNo) : Prop :=
  ¬ seqSmaller sequence ((e.lastIndSeq + e.baWinSize.toNat + 1) &&& maxSeq) maxSeq = true

/-- The first frame of the list is at or before the number. -/
def HeadDue (e : BaRecEntry) (sequence : Nat) : Prop :=
  ∃ m ∈ e.list.next.head?, m.sequence.val = sequence ∨ seqSmaller m.sequence sequence maxSeq = true

/-- **A frame that leaks a block**: EAPOL, out of order, when a block is free or the moving window
frees one. -/
def Leaks (rx : Rx) (blk : RxBlk) : Prop :=
  blk.eap = true ∧ OutOfOrder rx.entry blk.sequence ∧
    (0 < rx.freelist ∨ BeyondWindow rx.entry blk.sequence ∧
      HeadDue rx.entry (winStartSeq rx.entry blk.sequence))

instance (e : BaRecEntry) (sequence : SeqNo) : Decidable (OutOfOrder e sequence) :=
  inferInstanceAs (Decidable (_ ∧ _ ∧ ¬ (_ ∨ _)))

instance (e : BaRecEntry) (sequence : SeqNo) : Decidable (BeyondWindow e sequence) :=
  inferInstanceAs (Decidable (¬ _))

instance (e : BaRecEntry) (sequence : Nat) : Decidable (HeadDue e sequence) :=
  match h : e.list.next.head? with
  | none => isFalse (by rw [HeadDue, h]; rintro ⟨m, hm, -⟩; cases hm)
  | some m => decidable_of_iff (m.sequence.val = sequence ∨
      seqSmaller m.sequence sequence maxSeq = true)
      (by rw [HeadDue, h]; simp)

instance (rx : Rx) (blk : RxBlk) : Decidable (Leaks rx blk) :=
  inferInstanceAs (Decidable (_ ∧ _ ∧ (_ ∨ _ ∧ _)))

/-- Moving the window frees a block exactly if the first frame of the list is due. -/
theorem freelist_leSeq_pos {rx : Rx} (h : rx.entry.Linked) (seq : Nat) :
    0 < (baIndicateReorderingMpdusLeSeq rx seq).freelist ↔
      0 < rx.freelist ∨ HeadDue rx.entry seq := by
  rw [HeadDue]
  rcases hnext : rx.entry.list.next with _ | ⟨m, rest⟩
  · simp [baIndicateReorderingMpdusLeSeq, hnext, leSeqLoop]
  · rw [baIndicateReorderingMpdusLeSeq, hnext, List.length_cons, leSeqLoop,
      baReorderingMpduProbe, hnext]
    simp only [List.head?_cons, Option.mem_some_iff, exists_eq_left']
    split
    · rename_i hdue
      rw [indicateHead_cons hnext h]
      obtain ⟨-, front, htook⟩ := leSeqLoop_took seq rest.length (rx.takeHead m rest) rfl
      have hfreed := htook.freed
      have hhead : (rx.takeHead m rest).freelist = rx.freelist + 1 := rfl
      dsimp only
      constructor
      · intro _
        exact .inr hdue
      · intro _
        omega
    · rename_i hdue
      exact ⟨.inl, fun hor => hor.resolve_right hdue⟩

theorem indicateInOrderFrom_exchange {rx : Rx} (start : Nat) (h : rx.entry.Linked) :
    Exchange rx (indicateInOrderFrom rx start) [] 0 := by
  obtain ⟨front, htook, -, -⟩ := indicateInOrderFrom_took _ h start
  exact htook.exchange

theorem flush_exchange {hz : OsHz} {rx : Rx} {now : Ulong} (h : rx.entry.Linked) :
    Exchange rx (baFlushReorderingTimeoutMpdus hz rx now) [] 0 := by
  rw [baFlushReorderingTimeoutMpdus]
  split
  · exact Exchange.refl h
  · split
    · exact (refresh_took rx h).exchange.congr rfl rfl rfl rfl
    · split
      · obtain ⟨-, front, htook⟩ := leSeq_took rx h ((rx.entry.lastIndSeq + 1) &&& maxSeq)
        have hmoved : Exchange rx (((baIndicateReorderingMpdusLeSeq rx
            ((rx.entry.lastIndSeq + 1) &&& maxSeq)).setLastIndSeqAtTimer now).setLastIndSeq
              ((rx.entry.lastIndSeq + 1) &&& maxSeq)) [] 0 :=
          htook.exchange.congr rfl rfl rfl rfl
        exact hmoved.trans (indicateInOrderFrom_exchange _ hmoved.linked)
      · exact Exchange.refl h

theorem bar_exchange {rx : Rx} (startSeq : SeqNo) (h : rx.entry.Linked) :
    Exchange rx (barOnEntry rx startSeq) [] 0 := by
  rw [barOnEntry]
  split
  · obtain ⟨-, front, htook⟩ := leSeq_took rx h startSeq
    exact htook.exchange.congr rfl rfl rfl rfl
  · exact Exchange.refl h

theorem indicateBySequence_exchange {rx : Rx} (blk : RxBlk) (now : Ulong) (h : rx.entry.Linked) :
    Exchange rx (indicateBySequence rx blk now) [blk.pRxPacket]
      (if Leaks rx blk then 1 else 0) := by
  rw [indicateBySequence]
  dsimp only
  split
  · -- the first frame of the session
    rename_i hreset
    rw [if_neg fun hl => hl.2.1.1 hreset]
    exact (Exchange.note (.legacy blk) h).congr rfl rfl rfl rfl
  · rename_i hreset
    split
    · -- I. in order
      rename_i hone
      rw [if_neg fun hl => by rw [hl.2.1.2.1] at hone; exact absurd hone (by decide)]
      have hnote : Exchange rx ((rx.setLastIndSeq blk.sequence).note (.legacy blk))
          [blk.pRxPacket] 0 := (Exchange.note (.legacy blk) h).congr rfl rfl rfl rfl
      exact (hnote.trans (indicateInOrderFrom_exchange _ hnote.linked)).congr rfl rfl rfl rfl
    · rename_i hone
      rw [Bool.not_eq_true] at hone
      split
      · -- II. duplicated, III. old
        rename_i hold
        rw [if_neg fun hl => hl.2.1.2.2 hold]
        exact (Exchange.note (.release blk.pRxPacket) h).congr rfl rfl rfl rfl
      · rename_i hold
        have hout : OutOfOrder rx.entry blk.sequence := ⟨hreset, hone, hold⟩
        split
        · -- IV. within the window
          rename_i hin
          have hiff : Leaks rx blk ↔ blk.eap = true ∧ 0 < rx.freelist :=
            ⟨fun hl => ⟨hl.1, hl.2.2.resolve_right fun hb => hb.1 hin⟩,
              fun hl => ⟨hl.1, hout, .inl hl.2⟩⟩
          simp only [hiff]
          exact enqueue_exchange blk h
        · -- V. beyond the window
          rename_i hbeyond
          obtain ⟨-, front, htook⟩ := leSeq_took rx h (winStartSeq rx.entry blk.sequence)
          have hmoved : Exchange rx (((baIndicateReorderingMpdusLeSeq rx
              (winStartSeq rx.entry blk.sequence)).setLastIndSeq
                (winStartSeq rx.entry blk.sequence)).setLastIndSeqAtTimer now) [] 0 :=
            htook.exchange.congr rfl rfl rfl rfl
          have hpos := freelist_leSeq_pos h (winStartSeq rx.entry blk.sequence)
          have hiff : Leaks rx blk ↔ blk.eap = true ∧
              0 < (baIndicateReorderingMpdusLeSeq rx
                (winStartSeq rx.entry blk.sequence)).freelist := by
            rw [hpos]
            constructor
            · rintro ⟨heap, -, hfree⟩
              exact ⟨heap, hfree.imp_right And.right⟩
            · rintro ⟨heap, hfree⟩
              exact ⟨heap, hout, hfree.imp_right fun hdue => ⟨hbeyond, hdue⟩⟩
          simp only [hiff]
          have hkept := hmoved.trans (enqueue_exchange blk hmoved.linked)
          rw [Nat.zero_add, List.nil_append] at hkept
          have hdone := hkept.trans (indicateInOrderFrom_exchange
            (baEnqueueReorderingPacket (((baIndicateReorderingMpdusLeSeq rx
              (winStartSeq rx.entry blk.sequence)).setLastIndSeq
                (winStartSeq rx.entry blk.sequence)).setLastIndSeqAtTimer now)
                  blk).entry.lastIndSeq hkept.linked)
          exact hdone

theorem indicateOnEntry_exchange (hz : OsHz) (rx : Rx) (blk : RxBlk) (now : Ulong)
    (h : rx.entry.Linked) :
    Exchange rx (indicateOnEntry hz rx blk now) [blk.pRxPacket]
      (if Leaks (afterTimeouts hz rx blk now) blk then 1 else 0) := by
  have hflush : Exchange rx (afterTimeouts hz rx blk now) [] 0 := by
    have hseq : Exchange rx { rx with entry := { rx.entry with rcvSeq := blk.sequence } } [] 0 :=
      (Exchange.refl h).congr rfl rfl rfl rfl
    exact (hseq.trans (flush_exchange hseq.linked)).congr rfl rfl rfl rfl
  have hdone := hflush.trans (indicateBySequence_exchange blk now hflush.linked)
  rwa [Nat.zero_add, List.nil_append] at hdone

/-! ## 3. The table -/

/-- The blocks in the reorder lists of all sessions. -/
def blocksInLists (ad : Adapter) : Nat :=
  ∑ i ∈ Finset.range maxLenOfBaRecTable, (ad.baRecEntry i).list.next.length

/-- How often a packet waits in the reorder lists of all sessions. -/
def timesBuffered (ad : Adapter) (p : Packet) : Nat :=
  ∑ i ∈ Finset.range maxLenOfBaRecTable, (ad.baRecEntry i).packets.count p

def timesIndicated (ad : Adapter) (p : Packet) : Nat :=
  ad.log.countP (Disposal.indicates p)

def timesReleased (ad : Adapter) (p : Packet) : Nat :=
  ad.log.countP (Disposal.releases p)

/-- What an operation on the table exchanges. -/
structure TableExchange (ad ad' : Adapter) (received : List Packet) (lost : Nat) : Prop where
  blocks : ad'.freelist + blocksInLists ad' + lost = ad.freelist + blocksInLists ad
  packets : ∀ p, timesBuffered ad' p + (ad'.log.map Disposal.packet).count p =
    timesBuffered ad p + (ad.log.map Disposal.packet).count p + received.count p
  outside : ∀ i, maxLenOfBaRecTable ≤ i →
    (ad'.baRecEntry i).recBaStatus = (ad.baRecEntry i).recBaStatus

theorem TableExchange.trans {ad₁ ad₂ ad₃ : Adapter} {ps₁ ps₂ : List Packet} {lost₁ lost₂ : Nat}
    (h₁ : TableExchange ad₁ ad₂ ps₁ lost₁) (h₂ : TableExchange ad₂ ad₃ ps₂ lost₂) :
    TableExchange ad₁ ad₃ (ps₁ ++ ps₂) (lost₁ + lost₂) where
  blocks := by
    have hb₁ := h₁.blocks
    have hb₂ := h₂.blocks
    omega
  packets := by
    intro p
    have hp₁ := h₁.packets p
    have hp₂ := h₂.packets p
    rw [List.count_append]
    omega
  outside := fun i hi => (h₂.outside i hi).trans (h₁.outside i hi)

/-- Nothing is exchanged where the lists, the pool and the log stay. -/
theorem TableExchange.none {ad ad' : Adapter}
    (hlist : ∀ i, (ad'.baRecEntry i).list = (ad.baRecEntry i).list)
    (hfree : ad'.freelist = ad.freelist) (hlog : ad'.log = ad.log)
    (houtside : ∀ i, maxLenOfBaRecTable ≤ i →
      (ad'.baRecEntry i).recBaStatus = (ad.baRecEntry i).recBaStatus) :
    TableExchange ad ad' [] 0 where
  blocks := by simp only [blocksInLists, hlist, hfree, Nat.add_zero]
  packets := by
    intro p
    simp only [timesBuffered, BaRecEntry.packets, hlist, hlog, List.count_nil, Nat.add_zero]
  outside := houtside

theorem TableExchange.refl {ad : Adapter} : TableExchange ad ad [] 0 :=
  TableExchange.none (fun _ => rfl) rfl rfl fun _ _ => rfl

/-- Replacing one term of a sum. -/
theorem sum_replace {s : Finset Nat} {f : Nat → Nat} {idx : Nat} (x : Nat) (h : idx ∈ s) :
    ∑ i ∈ s, (if i = idx then x else f i) + f idx = ∑ i ∈ s, f i + x := by
  have hsplit := Finset.add_sum_erase s f h
  have hsplit' := Finset.add_sum_erase s (fun i => if i = idx then x else f i) h
  have hrest : ∑ i ∈ s.erase idx, (if i = idx then x else f i) = ∑ i ∈ s.erase idx, f i :=
    Finset.sum_congr rfl fun i hi => if_neg (Finset.ne_of_mem_erase hi)
  rw [hrest] at hsplit'
  simp only [if_true] at hsplit'
  omega

/-- **The exchange of one entry is the exchange of the table.** -/
theorem Exchange.store {ad : Adapter} {idx : Nat} {rx : Rx} {ps : List Packet} {lost : Nat}
    (h : Exchange (ad.rx idx) rx ps lost) (hidx : idx < maxLenOfBaRecTable) :
    TableExchange ad (ad.store idx rx) ps lost := by
  have hmem : idx ∈ Finset.range maxLenOfBaRecTable := Finset.mem_range.mpr hidx
  have hentry : ∀ {α : Type} (f : BaRecEntry → α) (i : Nat),
      f ((ad.store idx rx).baRecEntry i) =
        if i = idx then f rx.entry else f (ad.baRecEntry i) := by
    intro α f i
    rw [Adapter.store]
    exact apply_ite f _ _ _
  refine ⟨?_, fun p => ?_, fun i hi => ?_⟩
  · have hsum := sum_replace (f := fun i => (ad.baRecEntry i).list.next.length)
      rx.entry.list.next.length hmem
    have hblocks := h.blocks
    simp only [blocksInLists, hentry fun e => e.list.next.length]
    change rx.freelist + _ + lost = _
    change _ = ad.freelist + (ad.baRecEntry idx).list.next.length at hblocks
    omega
  · have hsum := sum_replace (f := fun i => (ad.baRecEntry i).packets.count p)
      (rx.entry.packets.count p) hmem
    have hpackets := h.packets p
    simp only [timesBuffered, hentry fun e => e.packets.count p]
    change _ + (rx.log.map Disposal.packet).count p = _
    change _ = (ad.baRecEntry idx).packets.count p + (ad.log.map Disposal.packet).count p + _
      at hpackets
    omega
  · rw [hentry BaRecEntry.recBaStatus, if_neg]
    rintro rfl
    omega

/-- A packet that goes to the log right away. -/
theorem TableExchange.note {ad : Adapter} (d : Disposal) :
    TableExchange ad { ad with log := ad.log ++ [d] } [d.packet] 0 where
  blocks := by simp only [blocksInLists, Nat.add_zero]
  packets := by
    intro p
    rw [List.map_append, List.count_append]
    exact (Nat.add_assoc _ _ _).symm
  outside := fun _ _ => rfl

/-! ## 4. The operations -/

/-- The table is consistent and nothing but its entries is in use. -/
structure Accounted (ad : Adapter) : Prop where
  table : Table BaRecEntry.Linked ad
  outside : ∀ i, maxLenOfBaRecTable ≤ i → (ad.baRecEntry i).recBaStatus = .recipientNone

theorem Accounted.init (freelist : Nat) : Accounted (baTableInit freelist) where
  table := (table_init freelist).imp fun _ h => h.linked
  outside := fun _ _ => rfl

theorem Accounted.index_lt {ad : Adapter} (h : Accounted ad) (wcid : Nat) (tid : Fin 16) :
    ad.baRecWcidArray wcid tid < maxLenOfBaRecTable := by
  by_cases hidx : ad.baRecWcidArray wcid tid = 0
  · rw [hidx]
    decide
  · exact (Finset.mem_Ico.mp (h.table.mapped wcid tid hidx).1).2

/-- The packet an operation receives. -/
def receivedBy : Op → List Packet
  | .indicate blk _ => [blk.pRxPacket]
  | _ => []

/-- **The operation leaks a block.** -/
def LeaksBlock (hz : OsHz) (ad : Adapter) : Op → Prop
  | .indicate blk now32 => FindsSession ad blk ∧
      Leaks (afterTimeouts hz (ad.rx (ad.baRecWcidArray blk.wcid blk.tid)) blk now32) blk
  | _ => False

instance (hz : OsHz) (ad : Adapter) (op : Op) : Decidable (LeaksBlock hz ad op) :=
  match op with
  | .indicate _ _ => inferInstanceAs (Decidable (_ ∧ _))
  | .blockAckReq .. | .flush .. | .maintain .. | .sessionAdd .. | .tearDown .. | .idleTimeout .. =>
    inferInstanceAs (Decidable False)

/-- What an operation does to the accounts. -/
structure Booked (ad ad' : Adapter) (received : List Packet) (lost : Nat) : Prop where
  exchange : TableExchange ad ad' received lost
  table : Table BaRecEntry.Linked ad'

theorem Booked.refl {ad : Adapter} (h : Accounted ad) : Booked ad ad [] 0 :=
  ⟨TableExchange.refl, h.table⟩

theorem Booked.accounted {ad ad' : Adapter} {ps : List Packet} {lost : Nat} (h : Accounted ad)
    (hb : Booked ad ad' ps lost) : Accounted ad' where
  table := hb.table
  outside := fun i hi => (hb.exchange.outside i hi).trans (h.outside i hi)

theorem Booked.trans {ad₁ ad₂ ad₃ : Adapter} {ps₁ ps₂ : List Packet} {lost₁ lost₂ : Nat}
    (h₁ : Booked ad₁ ad₂ ps₁ lost₁) (h₂ : Booked ad₂ ad₃ ps₂ lost₂) :
    Booked ad₁ ad₃ (ps₁ ++ ps₂) (lost₁ + lost₂) :=
  ⟨h₁.exchange.trans h₂.exchange, h₂.table⟩

/-- A function that works on one entry. -/
theorem Exchange.booked {ad : Adapter} {idx : Nat} {f : Rx → Rx} {ps : List Packet} {lost : Nat}
    (hf : Exchange (ad.rx idx) (f (ad.rx idx)) ps lost) (h : Accounted ad)
    (hidx : idx < maxLenOfBaRecTable)
    (hempty : (ad.baRecEntry idx).recBaStatus = .recipientNone →
      (f (ad.rx idx)).entry.list.next = []) :
    Booked ad (ad.store idx (f (ad.rx idx))) ps lost :=
  ⟨hf.store hidx, h.table.store idx hf.linked hf.session hempty⟩

theorem flush_booked {hz : OsHz} {ad : Adapter} (h : Accounted ad) (wcid : Nat) (tid : Fin 16)
    (now : Ulong) : Booked ad (flushTimeout hz ad wcid tid now) [] 0 := by
  have hlinked := h.table.entry (ad.baRecWcidArray wcid tid)
  refine Exchange.booked (f := fun rx => baFlushReorderingTimeoutMpdus hz rx now)
    (flush_exchange hlinked) h (h.index_lt wcid tid) fun hnone => ?_
  have hq : (ad.rx (ad.baRecWcidArray wcid tid)).entry.list.qlen = 0 := by
    refine hlinked.trans ?_
    exact List.length_eq_zero_iff.mpr (h.table.free _ hnone)
  rw [baFlushReorderingTimeoutMpdus, if_pos hq]
  exact h.table.free _ hnone

theorem maintain_booked {hz : OsHz} {ad : Adapter} (h : Accounted ad) (entryNone : Nat → Bool)
    (now : Ulong) : Booked ad (baReOrderingBufferMaintain hz ad entryNone now) [] 0 := by
  rw [baReOrderingBufferMaintain]
  -- a step of either loop adds nothing to what is booked so far
  refine Run.invariant_always (Booked ad · [] 0) (fun ad' wcid hb => ?_) (Booked.refl h)
  split
  · exact hb
  · refine Run.invariant_always (Booked ad · [] 0) (fun ad' tid hb => ?_) hb
    exact hb.trans (flush_booked (hb.accounted h) wcid (Fin.ofNat 16 tid) now)

/-- What is set of the cells and the count is not exchanged. -/
theorem TableExchange.congr {ad₁ ad₂ ad₃ : Adapter} {ps : List Packet} {lost : Nat}
    (h : TableExchange ad₁ ad₂ ps lost) (hentry : ad₃.baRecEntry = ad₂.baRecEntry)
    (hfree : ad₃.freelist = ad₂.freelist) (hlog : ad₃.log = ad₂.log) :
    TableExchange ad₁ ad₃ ps lost := by
  have hnone : TableExchange ad₂ ad₃ [] 0 :=
    TableExchange.none (fun i => by rw [hentry]) hfree hlog fun i _ => by rw [hentry]
  have htrans := h.trans hnone
  rwa [List.append_nil] at htrans

theorem TableExchange.setWcidArray {ad₁ ad₂ : Adapter} {ps : List Packet} {lost w i : Nat}
    {t : Fin 16} (h : TableExchange ad₁ ad₂ ps lost) :
    TableExchange ad₁ (ad₂.setWcidArray w t i) ps lost :=
  h.congr rfl rfl rfl

/-- What is set of an entry besides its list is not exchanged either. -/
theorem TableExchange.modify {ad₁ ad₂ : Adapter} {ps : List Packet} {lost idx : Nat}
    {f : BaRecEntry → BaRecEntry} (h : TableExchange ad₁ ad₂ ps lost)
    (hidx : idx < maxLenOfBaRecTable) (hf : ∀ e, (f e).list = e.list) :
    TableExchange ad₁ (ad₂.modifyEntry idx f) ps lost := by
  have hentry : ∀ i, (ad₂.modifyEntry idx f).baRecEntry i =
      if i = idx then f (ad₂.baRecEntry i) else ad₂.baRecEntry i := fun _ => rfl
  have hnone : TableExchange ad₂ (ad₂.modifyEntry idx f) [] 0 := by
    refine TableExchange.none (fun i => ?_) rfl rfl fun i hi => ?_
    · rw [hentry]
      split
      · exact hf _
      · rfl
    · rw [hentry, if_neg]
      rintro rfl
      omega
  have htrans := h.trans hnone
  rwa [List.append_nil] at htrans

theorem refresh_stored {ad : Adapter} (h : Accounted ad) {idx : Nat}
    (hidx : idx < maxLenOfBaRecTable) :
    TableExchange ad (ad.store idx (baRefreshReorderingMpdus (ad.rx idx))) [] 0 :=
  Exchange.store (refresh_took (ad.rx idx) (h.table.entry idx)).exchange hidx

theorem sessionAdd_booked {ad : Adapter} (h : Accounted ad) (wcid : Nat) (limit : UInt8)
    (frame : FrameAddbaReq) : Booked ad (baRecSessionAdd ad wcid limit frame).1 [] 0 := by
  refine ⟨?_, h.table.sessionAdd⟩
  dsimp only [baRecSessionAdd]
  by_cases hidx : ad.baRecWcidArray wcid frame.tid = 0
  · rw [if_pos hidx]
    rcases alloc_spec (ad.baRecWcidArray wcid frame.tid) h.table with ⟨i, hi, -, hall⟩ | hall
    · rw [hall]
      have hlt := (Finset.mem_Ico.mp hi).2
      have hcount : TableExchange ad { ad with numAsRecipient := ad.numAsRecipient + 1 } [] 0 :=
        TableExchange.refl.congr rfl rfl rfl
      have huse : TableExchange ad ({ ad with
          numAsRecipient := ad.numAsRecipient + 1 }.modifyEntry i
            fun e => { e with recBaStatus := .recipientUsed }) [] 0 :=
        TableExchange.modify hcount hlt fun _ => rfl
      dsimp only
      exact TableExchange.setWcidArray (TableExchange.modify huse hlt fun _ => rfl)
    · rw [hall]
      exact TableExchange.refl
  · rw [if_neg hidx]
    have hlt := h.index_lt wcid frame.tid
    dsimp only
    exact TableExchange.setWcidArray (TableExchange.modify (refresh_stored h hlt) hlt fun _ => rfl)

theorem freeRecEntry_exchange (ad : Adapter) (idx : Nat) :
    TableExchange ad (baTableFreeRecEntry ad idx) [] 0 := by
  rw [baTableFreeRecEntry]
  split
  · exact TableExchange.refl
  · rename_i hidx
    dsimp only
    split
    · exact TableExchange.refl
    · have hclear : TableExchange ad
          { ad.setWcidArray (ad.baRecEntry idx).wcid (ad.baRecEntry idx).tid 0 with
            numAsRecipient := ad.numAsRecipient - 1 } [] 0 :=
        TableExchange.refl.congr rfl rfl rfl
      rw [not_or, Nat.not_le] at hidx
      exact TableExchange.modify hclear hidx.2 fun _ => rfl

theorem tearDown_booked {ad : Adapter} (h : Accounted ad) (wcid : Nat) (tid : Fin 16)
    (bPassive elemAlloc : Bool) :
    Booked ad (baRecSessionTearDown ad wcid tid bPassive elemAlloc) [] 0 := by
  refine ⟨?_, h.table.tearDown⟩
  dsimp only [baRecSessionTearDown]
  split
  · exact TableExchange.refl
  · split
    · exact TableExchange.refl
    · have hlt := h.index_lt wcid tid
      split
      · split
        · exact TableExchange.refl
        · have hmodify := TableExchange.modify
            (f := fun e => { e with lastIndSeq := resetRcvSeq, baWinSize := 0 })
            (refresh_stored h hlt) hlt fun _ => rfl
          exact TableExchange.trans (TableExchange.setWcidArray hmodify)
            (freeRecEntry_exchange _ _)
      · exact freeRecEntry_exchange _ _

theorem idleTimeout_booked {ad : Adapter} (h : Accounted ad) (idx : Nat) (now : Ulong) :
    Booked ad (baRecSessionIdleTimeout ad idx now) [] 0 := by
  refine ⟨?_, h.table.idleTimeout⟩
  dsimp only [baRecSessionIdleTimeout]
  split
  · rename_i haccept
    have hlt : idx < maxLenOfBaRecTable := by
      by_contra hge
      have hnone := h.outside idx (Nat.le_of_not_lt hge)
      rw [haccept.1] at hnone
      exact absurd hnone (by simp)
    exact refresh_stored h hlt
  · exact TableExchange.refl

/-- **One operation on the accounts.** -/
theorem step_booked (hz : OsHz) {ad : Adapter} (op : Op) (h : Accounted ad) :
    Booked ad (step hz ad op) (receivedBy op) (if LeaksBlock hz ad op then 1 else 0) := by
  cases op with
  | indicate blk now =>
    have hnote : ∀ d : Disposal, d.packet = blk.pRxPacket → ¬ FindsSession ad blk →
        Booked ad { ad with log := ad.log ++ [d] } (receivedBy (.indicate blk now))
          (if LeaksBlock hz ad (.indicate blk now) then 1 else 0) := by
      intro d hd hfind
      rw [if_neg fun hl => hfind hl.1, receivedBy, ← hd]
      exact ⟨TableExchange.note d, h.table.log⟩
    by_cases hfind : FindsSession ad blk
    · obtain ⟨hmem, hacc, -, -, -⟩ := h.table.mapped _ _ hfind.2.2
      rw [step, indicateAmpduPacket_eq hfind]
      have hexch := indicateOnEntry_exchange hz
        (ad.rx (ad.baRecWcidArray blk.wcid blk.tid)) blk now (h.table.entry _)
      have hiff : LeaksBlock hz ad (.indicate blk now) ↔
          Leaks (afterTimeouts hz (ad.rx (ad.baRecWcidArray blk.wcid blk.tid)) blk now) blk :=
        ⟨fun hl => hl.2, fun hl => ⟨hfind, hl⟩⟩
      simp only [hiff]
      refine Exchange.booked (f := fun rx => indicateOnEntry hz rx blk now) hexch h
        (h.index_lt _ _) fun hnone => ?_
      rw [hacc] at hnone
      exact absurd hnone (by simp)
    · simp only [step, indicateAmpduPacket]
      split
      · exact hnote (.release blk.pRxPacket) rfl hfind
      · split
        · split
          · exact hnote (.legacy blk) rfl hfind
          · rename_i hsize hwcid hidx
            refine absurd ⟨?_, hwcid, hidx⟩ hfind
            cases ha : blk.amsdu with
            | true => exact .inl rfl
            | false => exact .inr (by simpa [ha] using hsize)
        · exact hnote (.release blk.pRxPacket) rfl hfind
  | blockAckReq halting wcid msgLen tid startSeq =>
    rw [if_neg (id : ¬ LeaksBlock hz ad (.blockAckReq halting wcid msgLen tid startSeq))]
    simp only [step, cntlEnqueueForRecv, receivedBy]
    split
    · exact Booked.refl h
    · split
      · exact Booked.refl h
      · split
        · refine Exchange.booked (f := fun rx => barOnEntry rx startSeq)
            (bar_exchange startSeq (h.table.entry _)) h (h.index_lt _ _) fun hnone => ?_
          exact barOnEntry_empty (h.table.free _ hnone)
        · exact Booked.refl h
  | flush wcid tid now =>
    rw [if_neg (id : ¬ LeaksBlock hz ad (.flush wcid tid now))]
    exact flush_booked h wcid tid now
  | maintain entryNone now =>
    rw [if_neg (id : ¬ LeaksBlock hz ad (.maintain entryNone now))]
    exact maintain_booked h entryNone now
  | sessionAdd wcid limit frame =>
    rw [if_neg (id : ¬ LeaksBlock hz ad (.sessionAdd wcid limit frame))]
    exact sessionAdd_booked h wcid limit frame
  | tearDown wcid tid bPassive elemAlloc =>
    rw [if_neg (id : ¬ LeaksBlock hz ad (.tearDown wcid tid bPassive elemAlloc))]
    exact tearDown_booked h wcid tid bPassive elemAlloc
  | idleTimeout idx now =>
    rw [if_neg (id : ¬ LeaksBlock hz ad (.idleTimeout idx now))]
    exact idleTimeout_booked h idx now

/-! ## 5. Runs -/

/-- The blocks that the steps of a run leak. -/
def leakedBlocks (hz : OsHz) : Adapter → List Op → Nat
  | _, [] => 0
  | ad, op :: ops => (if LeaksBlock hz ad op then 1 else 0) + leakedBlocks hz (step hz ad op) ops

theorem leakedBlocks_eq_zero_iff {hz : OsHz} {ops : List Op} {ad : Adapter} :
    leakedBlocks hz ad ops = 0 ↔
      Run.StepsMeet (step hz) (fun ad op => ¬ LeaksBlock hz ad op) ad ops := by
  induction ops generalizing ad with
  | nil => exact ⟨fun _ => trivial, fun _ => rfl⟩
  | cons op ops ih =>
    rw [leakedBlocks, Run.stepsMeet_cons, ← ih, Nat.add_eq_zero_iff]
    split
    · rename_i hl
      exact ⟨fun h => absurd h.1 (by decide), fun h => absurd hl h.1⟩
    · rename_i hl
      exact ⟨fun h => ⟨hl, h.2⟩, fun h => ⟨rfl, h.2⟩⟩

/-- **A run on the accounts.** -/
theorem run_booked (hz : OsHz) (ops : List Op) {ad : Adapter} (h : Accounted ad) :
    Booked ad (Run.final (step hz) ad ops) (ops.flatMap receivedBy) (leakedBlocks hz ad ops) := by
  induction ops generalizing ad with
  | nil => exact Booked.refl h
  | cons op ops ih =>
    have hstep := step_booked hz op h
    rw [Run.final_cons, List.flatMap_cons, leakedBlocks]
    exact hstep.trans (ih (hstep.accounted h))

/-- `ba_reordering_resource_init`: the free list is built block by block, unless there is no memory
for the blocks. -/
def baReorderingResourceInit (ad : Adapter) (num : Nat) (memAlloc : Bool) : Adapter × Bool :=
  if memAlloc then
    (Nat.repeat (fun ad => { ad with freelist := ad.freelist + 1 }) num { ad with freelist := 0 },
      true)
  else ({ ad with freelist := 0 }, false)

theorem baReorderingResourceInit_eq (ad : Adapter) (num : Nat) :
    baReorderingResourceInit ad num true = ({ ad with freelist := num }, true) := by
  have hloop : ∀ n, Nat.repeat (fun ad : Adapter => { ad with freelist := ad.freelist + 1 }) n
      { ad with freelist := 0 } = { ad with freelist := n } := by
    intro n
    induction n with
    | zero => rfl
    | succ n ih => rw [Nat.repeat, ih]
  rw [baReorderingResourceInit, if_pos rfl, hloop]

/-- **Blocks and packets are conserved**: of `pool` blocks each is free or in a list; a packet is in
the lists, handed up and released as often as it was received; and without a session every block is
free. -/
structure Conserved (pool : Nat) (received : List Packet) (ad : Adapter) : Prop where
  blocks : ad.freelist + blocksInLists ad = pool
  packets : ∀ p, timesBuffered ad p + timesIndicated ad p + timesReleased ad p = received.count p
  idle : (∀ i, (ad.baRecEntry i).recBaStatus = .recipientNone) → ad.freelist = pool

namespace Example

/-- A session is set up, its first frame is 3, and an EAPOL frame 5 comes before 4. -/
def eapolAhead : List Op :=
  [.sessionAdd 1 64 ⟨0, 64, 0⟩, frame 3 false, frame 5 true]

end Example

end Mt7601.Ba
