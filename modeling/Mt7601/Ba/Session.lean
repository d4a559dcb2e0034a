/-
# A received subframe on its session

The five cases of `Indicate_AMPDU_Packet` on a settled entry. Every case leaves the list in order;
all but one leave the entry settled, and the exception is where the code differs between its paths.
A frame that `ba_enqueue_reordering_packet` cannot buffer is indicated past the list and becomes
`LastIndSeq`, but unlike the in-order path, the time-out and the window move, this path does not go
on to indicate what is now in order. If the frame's successor is waiting, it stays at the head of
the list as the *next* number (`Strands`).
-/
import Mt7601.Ba.Reorder

namespace Mt7601.Ba

open SeqNum

/-! ## 1. One subframe -/

/-- **The frame strands its successor**: it cannot be buffered, is not the next number in order, and
the number after it is waiting in the list. -/
def Strands (rx : Rx) (blk : RxBlk) : Prop :=
  CannotBuffer rx.freelist blk ∧ seqStepOne blk.sequence rx.entry.lastIndSeq maxSeq = false ∧
    (blk.sequence.val + 1) % 4096 ∈ rx.entry.keys

instance (rx : Rx) (blk : RxBlk) : Decidable (Strands rx blk) :=
  inferInstanceAs (Decidable (_ ∧ _ ∧ _))

/-- What a received subframe leaves of an entry: see `indicateBySequence_spec`. -/
structure Indicated (rx rx' : Rx) (blk : RxBlk) : Prop where
  ordered : Ordered rx'.entry
  session : rx'.entry.session = rx.entry.session
  settled : ¬ Strands rx blk → Settled rx'.entry
  stranded : Strands rx blk → rx'.entry.lastIndSeq = blk.sequence.val ∧
    (blk.sequence.val + 1) % 4096 ∈ rx'.entry.keys

/-- A step that settles the entry, on a frame that strands nothing. -/
theorem Indicated.of_settled {rx rx' : Rx} {blk : RxBlk} (hset : Settled rx'.entry)
    (hsess : rx'.entry.session = rx.entry.session) (hno : ¬ Strands rx blk) :
    Indicated rx rx' blk :=
  ⟨hset.toOrdered, hsess, fun _ => hset, fun h => absurd h hno⟩

theorem strands_offset {rx : Rx} {blk : RxBlk} (h : Settled rx.entry) (hs : Strands rx blk) :
    1 < offset 4096 rx.entry.lastIndSeq blk.sequence ∧
      offset 4096 rx.entry.lastIndSeq blk.sequence < rx.entry.baWinSize.toNat := by
  obtain ⟨-, hone, hmem⟩ := hs
  have hgap := h.gap _ hmem
  have hle := h.window.le _ hmem
  rw [offset_mod (by decide), offset_succ (by decide)] at hgap hle
  have hne : offset 4096 rx.entry.lastIndSeq blk.sequence ≠ 1 := by
    intro h1
    have heq : blk.sequence.val = (rx.entry.lastIndSeq + 1) % 4096 := by
      refine eq_of_offset_eq (b := rx.entry.lastIndSeq) blk.sequence.isLt
        (Nat.mod_lt _ (by decide)) ?_
      rw [h1, offset_mod (by decide), offset_add (by decide)]
    rw [seqStepOne_iff.mpr heq] at hone
    exact absurd hone (by decide)
  split at hgap
  · rename_i hlt
    rw [if_pos hlt] at hle
    omega
  · omega

/-- Case IV: the frame lies inside the window and is not the next one. -/
theorem enqueue_inside {rx : Rx} {blk : RxBlk} (h : Settled rx.entry)
    (hone : seqStepOne blk.sequence rx.entry.lastIndSeq maxSeq = false)
    (hlast : rx.entry.lastIndSeq < 4096)
    (hgt : 1 < offset 4096 rx.entry.lastIndSeq blk.sequence)
    (hle : offset 4096 rx.entry.lastIndSeq blk.sequence ≤ rx.entry.baWinSize.toNat) :
    Indicated rx (baEnqueueReorderingPacket rx blk) blk := by
  have hw := rx.entry.winSize_lt
  by_cases hbuf : CannotBuffer rx.freelist blk
  · obtain ⟨hl, hseq, hsess, hwin, hmem⟩ := enqueue_unbuffered hbuf h.linked h.window (by omega)
    have hwsz : (baEnqueueReorderingPacket rx blk).entry.baWinSize = rx.entry.baWinSize :=
      congrArg (fun s => s.2.2.1) hsess
    have hord : Ordered (baEnqueueReorderingPacket rx blk).entry :=
      Ordered.of_lt hl (hseq ▸ blk.sequence.isLt) (congrArg UInt8.toNat hwsz) (hseq ▸ hwin)
    refine ⟨hord, hsess, fun hno => ⟨hord, fun s hs => ?_⟩, fun hst => ⟨hseq, ?_⟩⟩
    · -- the successor is not waiting, so what is left starts two numbers ahead
      rw [hseq]
      have hpos := hwin.pos s hs
      have hne : offset 4096 blk.sequence s ≠ 1 := by
        intro h1
        refine hno ⟨hbuf, hone, ?_⟩
        have hs' := BaRecEntry.lt_of_mem_keys hs
        have : s = (blk.sequence.val + 1) % 4096 := by
          refine eq_of_offset_eq (b := blk.sequence) hs' (Nat.mod_lt _ (by decide)) ?_
          rw [h1, offset_mod (by decide), offset_add (by decide)]
        rw [← this]
        exact ((hmem s).mp hs).1
      omega
    · refine (hmem _).mpr ⟨hst.2.2, ?_⟩
      rw [offset_mod (by decide), offset_succ (by decide), if_pos (by omega)]
      omega
  · obtain ⟨hl, hseq, hsess, hwin, hmem⟩ :=
      enqueue_buffered hbuf h.linked h.window (by omega) hle
    have hwsz : (baEnqueueReorderingPacket rx blk).entry.baWinSize = rx.entry.baWinSize :=
      congrArg (fun s => s.2.2.1) hsess
    refine Indicated.of_settled ⟨Ordered.of_lt hl (by rw [hseq]; exact hlast)
      (congrArg UInt8.toNat hwsz) (by rw [hseq]; exact hwin), fun s hs => ?_⟩ hsess
      fun hst => hbuf hst.1
    rw [hseq]
    rcases hmem s hs with rfl | hs
    · exact hgt
    · exact h.gap s hs

/-- The start of the window that ends with `sequence`, as case V computes it. -/
theorem winStartSeq_eq {seq win : Nat} (hseq : seq < 4096) (hwin : win < 256) :
    let tmpSeq : Int := (seq : Int) - win - 1
    let tmpSeq := if tmpSeq < 0 then maxSeq + 1 + tmpSeq else tmpSeq
    (tmpSeq + 1).toNat &&& maxSeq = (seq + 4096 - win) % 4096 := by
  simp only [and_maxSeq]
  rw [show ((maxSeq : Nat) : Int) = 4095 from rfl]
  split <;> omega

/-- Case V: the frame lies beyond the window, which moves so that it ends with the frame. -/
theorem enqueue_beyond (rx : Rx) (blk : RxBlk) (now : Ulong) (h : Settled rx.entry)
    (hwin : 0 < rx.entry.baWinSize.toNat)
    (hgt : rx.entry.baWinSize.toNat < offset 4096 rx.entry.lastIndSeq blk.sequence)
    (hlt : offset 4096 rx.entry.lastIndSeq blk.sequence < 2048) :
    let winStartSeq := (blk.sequence.val + 4096 - rx.entry.baWinSize.toNat) % 4096
    let rx₁ := ((baIndicateReorderingMpdusLeSeq rx winStartSeq).setLastIndSeq
      winStartSeq).setLastIndSeqAtTimer now
    let rx₂ := baEnqueueReorderingPacket rx₁ blk
    Settled (indicateInOrderFrom rx₂ rx₂.entry.lastIndSeq).entry ∧
      (indicateInOrderFrom rx₂ rx₂.entry.lastIndSeq).entry.session = rx.entry.session := by
  intro winStartSeq rx₁ rx₂
  have hw := rx.entry.winSize_lt
  have hseq := blk.sequence.isLt
  set W := rx.entry.baWinSize.toNat with hW
  set o := offset 4096 rx.entry.lastIndSeq blk.sequence with ho
  -- the new start is `o - W` numbers ahead of the old one
  have hstart : winStartSeq = (rx.entry.lastIndSeq + (o - W)) % 4096 := by
    have hadd := add_offset (N := 4096) (b := rx.entry.lastIndSeq) (s := blk.sequence)
      (by decide)
    show (blk.sequence.val + 4096 - W) % 4096 = _
    omega
  have hoff : offset 4096 rx.entry.lastIndSeq winStartSeq = o - W := by
    rw [hstart, offset_mod (by decide), offset_add (by omega)]
  have hstartlt : winStartSeq < 4096 := Nat.mod_lt _ (by decide)
  obtain ⟨hdr, hnext⟩ := leSeq_spec rx (w := W) (by omega) hstartlt (by omega) h.linked h.window
  obtain ⟨hwin₁, -⟩ := keys_leSeq rx (Nat.le_of_eq hoff.symm) h.window hnext
  rw [← InWindow.base_mod (by decide), ← hstart] at hwin₁
  have hl₁ : rx₁.entry.list.qlen = rx₁.entry.list.next.length := hdr.linked
  have hW₁ : rx₁.entry.baWinSize.toNat = W := congrArg UInt8.toNat hdr.baWinSize
  have hseq₁ : offset 4096 rx₁.entry.lastIndSeq blk.sequence = W := by
    change offset 4096 winStartSeq blk.sequence = W
    rw [hstart, offset_base_mod (by decide), offset_advance (by decide) (by omega)]
    omega
  have hin₁ : InWindow 4096 rx₁.entry.lastIndSeq rx₁.entry.baWinSize.toNat rx₁.entry.keys := by
    rw [hW₁]
    exact hwin₁
  by_cases hbuf : CannotBuffer rx₁.freelist blk
  · obtain ⟨hl₂, hlast₂, hsess₂, hwin₂, -⟩ := enqueue_unbuffered hbuf hl₁ hin₁ (by omega)
    have hsess : rx₂.entry.baWinSize = rx₁.entry.baWinSize := congrArg (fun s => s.2.2.1) hsess₂
    obtain ⟨hset, hs⟩ := indicateInOrderFrom_spec rx₂ (hlast₂ ▸ hseq) rfl hl₂
      (by rw [hlast₂, hsess]; exact hwin₂)
    exact ⟨hset, hs.trans (hsess₂.trans hdr.session)⟩
  · obtain ⟨hl₂, hlast₂, hsess₂, hwin₂, -⟩ :=
      enqueue_buffered hbuf hl₁ hin₁ (by omega) (by omega)
    have hsess : rx₂.entry.baWinSize = rx₁.entry.baWinSize := congrArg (fun s => s.2.2.1) hsess₂
    obtain ⟨hset, hs⟩ := indicateInOrderFrom_spec rx₂ (hlast₂ ▸ hstartlt) rfl hl₂
      (by rw [hlast₂, hsess]; exact hwin₂)
    exact ⟨hset, hs.trans (hsess₂.trans hdr.session)⟩

/-- **A received subframe on a settled entry.** The list stays in order in every case, and the entry
stays settled unless the frame strands its successor. -/
theorem indicateBySequence_spec (rx : Rx) (blk : RxBlk) (now : Ulong) (h : Settled rx.entry)
    (hwin : 0 < rx.entry.baWinSize.toNat) :
    Indicated rx (indicateBySequence rx blk now) blk := by
  have hw := rx.entry.winSize_lt
  dsimp only [indicateBySequence]
  split
  · -- the first frame of the session
    rename_i hreset
    have hnil := h.reset hreset
    refine Indicated.of_settled (Settled.of_empty hnil ?_ (.inr blk.sequence.isLt)) rfl ?_
    · exact h.linked.trans (by rw [hnil]; rfl)
    · rintro ⟨-, -, hmem⟩
      simp [BaRecEntry.keys, hnil] at hmem
  · rename_i hreset
    have hlast := h.last.resolve_left hreset
    split
    · -- I. in order
      rename_i hone
      have heq := seqStepOne_iff.mp hone
      have hwin₁ := h.window.advance (by decide) h.gap
      rw [← InWindow.base_mod (by decide), ← heq] at hwin₁
      obtain ⟨hset, hsess⟩ := indicateInOrderFrom_spec
        ((rx.setLastIndSeq blk.sequence).note (.legacy blk)) blk.sequence.isLt rfl h.linked
        hwin₁
      exact Indicated.of_settled (hset.congr rfl rfl rfl) hsess
        fun hst => absurd hone (by simp [hst.2.1])
    · rename_i hone
      rw [Bool.not_eq_true] at hone
      split
      · -- II. duplicated, III. old
        rename_i hold
        refine Indicated.of_settled (h.congr rfl rfl rfl) rfl fun hst => ?_
        have hoff := strands_offset h hst
        rcases hold with heq | hsm
        · rw [heq, offset_self (by decide)] at hoff
          omega
        · have : 2048 ≤ offset 4096 rx.entry.lastIndSeq blk.sequence := seqSmaller_iff.mp hsm
          omega
      · rename_i hold
        rw [not_or] at hold
        have hlt : offset 4096 rx.entry.lastIndSeq blk.sequence < 2048 := by
          by_contra hge
          exact hold.2 (seqSmaller_iff.mpr (Nat.le_of_not_lt hge))
        have hgt : 1 < offset 4096 rx.entry.lastIndSeq blk.sequence := by
          have h0 : offset 4096 rx.entry.lastIndSeq blk.sequence ≠ 0 := by
            intro h0
            refine hold.1 (eq_of_offset_eq (b := rx.entry.lastIndSeq) blk.sequence.isLt hlast ?_)
            rw [h0, offset_self (by decide)]
          have h1 : offset 4096 rx.entry.lastIndSeq blk.sequence ≠ 1 := by
            intro h1
            have : seqStepOne blk.sequence rx.entry.lastIndSeq maxSeq = true := by
              refine seqStepOne_iff.mpr (eq_of_offset_eq (b := rx.entry.lastIndSeq)
                blk.sequence.isLt (Nat.mod_lt _ (by decide)) ?_)
              rw [h1, offset_mod (by decide), offset_add (by decide)]
            simp [this] at hone
          omega
        have hend : offset 4096 rx.entry.lastIndSeq
            ((rx.entry.lastIndSeq + rx.entry.baWinSize.toNat + 1) % 4096) =
            rx.entry.baWinSize.toNat + 1 := by
          rw [offset_mod (by decide), Nat.add_assoc, offset_add (by omega)]
        simp only [and_maxSeq]
        split
        · -- IV. within the window
          rename_i hin
          refine enqueue_inside h hone hlast hgt ?_
          by_contra hout
          exact not_seqSmaller_of_offset_le (b := rx.entry.lastIndSeq) (by omega) (by omega) hin
        · -- V. beyond the window
          rename_i hout
          have hbeyond : rx.entry.baWinSize.toNat <
              offset 4096 rx.entry.lastIndSeq blk.sequence := by
            by_contra hle
            exact hout (seqSmaller_of_offset_lt (b := rx.entry.lastIndSeq) (by omega) (by omega))
          have hstart := winStartSeq_eq blk.sequence.isLt hw
          simp only [and_maxSeq] at hstart
          simp only [hstart]
          obtain ⟨hset, hsess⟩ := enqueue_beyond rx blk now h hwin hbeyond hlt
          exact Indicated.of_settled hset hsess fun hst => by
            have := strands_offset h hst
            omega

/-- The entry as the five cases see it: the time-outs are done and the timer is restarted. -/
def afterTimeouts (hz : OsHz) (rx : Rx) (blk : RxBlk) (now : Ulong) : Rx :=
  (baFlushReorderingTimeoutMpdus hz
    { rx with entry := { rx.entry with rcvSeq := blk.sequence } } now).setLastIndSeqAtTimer now

theorem afterTimeouts_settled (hz : OsHz) (rx : Rx) (blk : RxBlk) (now : Ulong)
    (h : Settled rx.entry) :
    Settled (afterTimeouts hz rx blk now).entry ∧
      (afterTimeouts hz rx blk now).entry.session = rx.entry.session := by
  obtain ⟨hset, hsess⟩ := flush_settled hz
    { rx with entry := { rx.entry with rcvSeq := blk.sequence } } now (h.congr rfl rfl rfl)
  exact ⟨hset.congr rfl rfl rfl, hsess⟩

theorem indicateOnEntry_spec (hz : OsHz) (rx : Rx) (blk : RxBlk) (now : Ulong)
    (h : Settled rx.entry) (hwin : 0 < rx.entry.baWinSize.toNat) :
    Indicated (afterTimeouts hz rx blk now) (indicateOnEntry hz rx blk now) blk := by
  obtain ⟨hset, hsess⟩ := afterTimeouts_settled hz rx blk now h
  refine indicateBySequence_spec _ blk now hset ?_
  rw [show (afterTimeouts hz rx blk now).entry.baWinSize = rx.entry.baWinSize from
    congrArg (fun s => s.2.2.1) hsess]
  exact hwin

end Mt7601.Ba
